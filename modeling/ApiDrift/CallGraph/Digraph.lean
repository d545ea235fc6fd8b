import ApiDrift.InsertionMap

set_option autoImplicit false

/-!
# Directed graphs in insertion order

A directed graph keeps its vertices and its links in the order in which they came
in.  A link is known by its two ends and may carry a record; the ends of every
link are vertices.  Neighbours are listed in the order of the links to them.
-/

namespace ApiDrift

/-- A directed graph over names whose links may carry records. -/
structure Digraph (ρ : Type) where
  vertices : List String
  links : InsertionMap (String × String) (Option ρ)
  vertices_nodup : vertices.Nodup
  ends_mem : ∀ link ∈ links.keys, link.1 ∈ vertices ∧ link.2 ∈ vertices
  deriving Repr

namespace Digraph

variable {ρ : Type}

/-- The graph of the given vertices without links. -/
def ofVertices (vertices : List String) (h : vertices.Nodup) : Digraph ρ :=
  ⟨vertices, ∅, h, by simp⟩

instance : EmptyCollection (Digraph ρ) := ⟨ofVertices [] List.nodup_nil⟩

instance : Inhabited (Digraph ρ) := ⟨∅⟩

/-- Graphs of the same vertices and links in the same order are the same. -/
theorem ext_parts {g g' : Digraph ρ} (hvertices : g.vertices = g'.vertices)
    (hlinks : g.links = g'.links) : g = g' := by
  cases g
  cases g'
  cases hvertices
  cases hlinks
  rfl

/-! ## Neighbours -/

/-- There is a link from the first vertex to the second. -/
def Links (g : Digraph ρ) (u v : String) : Prop := (u, v) ∈ g.links.keys

instance (g : Digraph ρ) (u v : String) : Decidable (g.Links u v) :=
  inferInstanceAs (Decidable (_ ∈ _))

/-- The vertices that a vertex has links to. -/
def callees (g : Digraph ρ) (v : String) : List String :=
  (g.links.keys.filter fun link => link.1 = v).map Prod.snd

/-- The vertices that have links to a vertex. -/
def callers (g : Digraph ρ) (v : String) : List String :=
  (g.links.keys.filter fun link => link.2 = v).map Prod.fst

theorem mem_targets_iff {links : List (String × String)} {u v : String} :
    v ∈ (links.filter fun link => link.1 = u).map Prod.snd ↔ (u, v) ∈ links := by
  simp only [List.mem_map, List.mem_filter, decide_eq_true_eq]
  constructor
  · intro h
    obtain ⟨⟨a, b⟩, ⟨mem, rfl⟩, rfl⟩ := h
    exact mem
  · exact fun mem => ⟨(u, v), ⟨mem, rfl⟩, rfl⟩

theorem mem_callees_iff {g : Digraph ρ} {u v : String} :
    v ∈ g.callees u ↔ (u, v) ∈ g.links.keys :=
  mem_targets_iff

theorem mem_callers_iff {g : Digraph ρ} {u v : String} :
    u ∈ g.callers v ↔ (u, v) ∈ g.links.keys := by
  simp only [callers, List.mem_map, List.mem_filter, decide_eq_true_eq]
  constructor
  · intro h
    obtain ⟨⟨a, b⟩, ⟨mem, rfl⟩, rfl⟩ := h
    exact mem
  · exact fun mem => ⟨(u, v), ⟨mem, rfl⟩, rfl⟩

theorem callers_nodup (g : Digraph ρ) (v : String) : (g.callers v).Nodup := by
  refine List.pairwise_map.mpr ?_
  refine ((g.links.keys_nodup).filter _).imp_of_mem ?_
  intro a b ha hb different same
  have ha := (List.mem_filter.mp ha).2
  have hb := (List.mem_filter.mp hb).2
  simp only [decide_eq_true_eq] at ha hb
  exact different (Prod.ext same (ha.trans hb.symm))

theorem mem_vertices_of_mem_callers {g : Digraph ρ} {u v : String} (h : u ∈ g.callers v) :
    u ∈ g.vertices :=
  (g.ends_mem _ (mem_callers_iff.mp h)).1

theorem mem_vertices_of_mem_callees {g : Digraph ρ} {u v : String} (h : v ∈ g.callees u) :
    v ∈ g.vertices :=
  (g.ends_mem _ (mem_callees_iff.mp h)).2

/-! ## Growing -/

/-- The graph with a vertex, which goes to the end if it is new. -/
def addVertex (g : Digraph ρ) (v : String) : Digraph ρ :=
  if h : v ∈ g.vertices then g
  else
    { vertices := g.vertices ++ [v]
      links := g.links
      vertices_nodup := by
        rw [List.nodup_append]
        refine ⟨g.vertices_nodup, by simp, fun a ha b hb => ?_⟩
        rintro rfl
        exact h (List.mem_singleton.mp hb ▸ ha)
      ends_mem := fun link mem =>
        ⟨List.mem_append_left _ (g.ends_mem link mem).1,
          List.mem_append_left _ (g.ends_mem link mem).2⟩ }

theorem vertices_addVertex (g : Digraph ρ) (v : String) :
    (g.addVertex v).vertices = if v ∈ g.vertices then g.vertices else g.vertices ++ [v] := by
  unfold addVertex
  split <;> rfl

theorem mem_vertices_addVertex {g : Digraph ρ} {u v : String} :
    u ∈ (g.addVertex v).vertices ↔ u ∈ g.vertices ∨ u = v := by
  unfold addVertex
  split
  · rename_i h
    exact ⟨.inl, fun | .inl h => h | .inr rfl => h⟩
  · simp

@[simp] theorem links_addVertex (g : Digraph ρ) (v : String) : (g.addVertex v).links = g.links := by
  unfold addVertex
  split <;> rfl

/-- The graph with a link, whose record is made from the one it has so far.
Missing ends become vertices, the source first. -/
def connect (g : Digraph ρ) (source target : String) (record : Option ρ → Option ρ) :
    Digraph ρ :=
  let ends := (g.addVertex source).addVertex target
  { vertices := ends.vertices
    links := g.links.alter (source, target) fun old => record old.join
    vertices_nodup := ends.vertices_nodup
    ends_mem := by
      intro link mem
      rcases InsertionMap.mem_keys_alter.mp mem with mem | rfl
      · exact ends.ends_mem link (by simpa [ends] using mem)
      · simp [ends, mem_vertices_addVertex] }

theorem links_connect (g : Digraph ρ) (source target : String) (record : Option ρ → Option ρ) :
    (g.connect source target record).links =
      g.links.alter (source, target) fun old => record old.join :=
  rfl

theorem links_connect_iff {g : Digraph ρ} {source target u v : String}
    {record : Option ρ → Option ρ} :
    (g.connect source target record).Links u v ↔ g.Links u v ∨ u = source ∧ v = target := by
  rw [Links, links_connect, InsertionMap.mem_keys_alter, Prod.mk.injEq]
  rfl

theorem mem_vertices_connect {g : Digraph ρ} {source target v : String}
    {record : Option ρ → Option ρ} :
    v ∈ (g.connect source target record).vertices ↔ v ∈ g.vertices ∨ v = source ∨ v = target := by
  simp only [connect, mem_vertices_addVertex, or_assoc]

/-- The graph with every record changed by a function of the ends of its link
and itself. -/
def mapRecords (f : String → String → ρ → ρ) (g : Digraph ρ) : Digraph ρ where
  vertices := g.vertices
  links := g.links.mapValues fun link record => record.map (f link.1 link.2)
  vertices_nodup := g.vertices_nodup
  ends_mem := by simpa using g.ends_mem

@[simp] theorem callees_mapRecords (f : String → String → ρ → ρ) (g : Digraph ρ) (v : String) :
    (g.mapRecords f).callees v = g.callees v := by
  simp [mapRecords, callees]

@[simp] theorem callers_mapRecords (f : String → String → ρ → ρ) (g : Digraph ρ) (v : String) :
    (g.mapRecords f).callers v = g.callers v := by
  simp [mapRecords, callers]

theorem links_mapRecords (f : String → String → ρ → ρ) (g : Digraph ρ) :
    (g.mapRecords f).links = g.links.mapValues fun link record => record.map (f link.1 link.2) :=
  rfl

@[simp] theorem links_mapRecords_iff {f : String → String → ρ → ρ} {g : Digraph ρ}
    {u v : String} : (g.mapRecords f).Links u v ↔ g.Links u v := by
  simp [Links, links_mapRecords]

theorem mapRecords_mapRecords (f f' : String → String → ρ → ρ) (g : Digraph ρ) :
    (g.mapRecords f).mapRecords f' = g.mapRecords fun u v r => f' u v (f u v r) := by
  refine ext_parts rfl (InsertionMap.ext_entries ?_)
  simp [mapRecords, InsertionMap.mapValues, Function.comp_def]

/-- Changing all records can be put before connecting, if the record of the new
link follows. -/
theorem mapRecords_connect {f : String → String → ρ → ρ} {g : Digraph ρ} {source target : String}
    {record record' : Option ρ → Option ρ}
    (h : ∀ old, (record old).map (f source target) = record' (old.map (f source target))) :
    (g.connect source target record).mapRecords f =
      (g.mapRecords f).connect source target record' := by
  refine ext_parts ?_ ?_
  · simp only [connect, mapRecords, vertices_addVertex]
  · have hrecord : ∀ old : Option (Option ρ),
        (record old.join).map (f source target) =
          record' (old.map (Option.map (f source target))).join := by
      intro old
      rw [h]
      cases old <;> rfl
    rw [links_mapRecords, links_connect, links_connect, links_mapRecords]
    exact InsertionMap.mapValues_alter _ hrecord

/-! ## Links by source -/

/-- The links with their records, by source in vertex order and then in the
order of the targets. -/
def linksBySource (g : Digraph ρ) : List ((String × String) × Option ρ) :=
  g.vertices.flatMap fun v => g.links.entries.filter fun e => e.1.1 = v

theorem mem_linksBySource_iff {g : Digraph ρ} {entry : (String × String) × Option ρ} :
    entry ∈ g.linksBySource ↔ entry ∈ g.links.entries := by
  simp only [linksBySource, List.mem_flatMap, List.mem_filter, decide_eq_true_eq]
  constructor
  · intro h
    obtain ⟨_, _, hmem, _⟩ := h
    exact hmem
  · intro hmem
    exact ⟨entry.1.1, (g.ends_mem _ (List.mem_map_of_mem hmem)).1, hmem, rfl⟩

end Digraph

end ApiDrift
