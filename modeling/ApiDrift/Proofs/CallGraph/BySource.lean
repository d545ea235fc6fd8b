import ApiDrift.CallGraph.Digraph
import Mathlib.Data.List.Nodup

set_option autoImplicit false

/-!
# Links by source

A graph lists its links by source, in the order of its vertices and then of the targets.
That view has every link once.  It fixes the callees of each vertex with their order, and
the callers without it, and stays the same for a graph whose links are put in by source.
-/

namespace ApiDrift.Digraph

variable {ρ : Type} {g g' : Digraph ρ}

/-! ## The same links in another order -/

theorem entries_links_nodup (g : Digraph ρ) : g.links.entries.Nodup :=
  .of_map _ g.links.keys_nodup

/-- Links by source are the links in another order. -/
theorem linksBySource_perm (g : Digraph ρ) : g.linksBySource.Perm g.links.entries := by
  have hnodup : g.linksBySource.Nodup := by
    refine List.pairwise_flatMap.mpr ⟨fun v _ => g.entries_links_nodup.filter _, ?_⟩
    refine g.vertices_nodup.imp fun {v w} hother a ha b hb => ?_
    have hsource := (List.mem_filter.mp ha).2
    have hsource' := (List.mem_filter.mp hb).2
    simp only [decide_eq_true_eq] at hsource hsource'
    rintro rfl
    exact hother (hsource.symm.trans hsource')
  exact (List.perm_ext_iff_of_nodup hnodup g.entries_links_nodup).mpr fun entry =>
    mem_linksBySource_iff

/-! ## One source at a time -/

theorem filter_linksBySource (g : Digraph ρ) (v : String) :
    (g.linksBySource.filter fun entry => entry.1.1 = v) =
      g.links.entries.filter fun entry => entry.1.1 = v := by
  by_cases hv : v ∈ g.vertices
  · have hsource : ∀ w ∈ g.vertices, ∀ entry ∈ g.links.entries.filter fun e => e.1.1 = w,
        entry.1.1 = w := by
      intro w _ entry hentry
      exact of_decide_eq_true (List.mem_filter.mp hentry).2
    have hdistinct : (g.vertices.map id).Nodup := by
      rw [List.map_id]
      exact g.vertices_nodup
    exact Keyed.filter_flatMap_eq hdistinct hsource hv
  · have hmissing : ∀ entry ∈ g.links.entries, ¬ entry.1.1 = v := by
      rintro entry hentry rfl
      exact hv (g.ends_mem _ (List.mem_map_of_mem hentry)).1
    rw [List.filter_eq_nil_iff.mpr, List.filter_eq_nil_iff.mpr]
    · exact fun entry hentry => by simpa using hmissing entry hentry
    · exact fun entry hentry => by simpa using hmissing entry (mem_linksBySource_iff.mp hentry)

/-- Callees are read off the links by source. -/
theorem callees_eq_linksBySource (g : Digraph ρ) (v : String) :
    g.callees v = (g.linksBySource.filter fun entry => entry.1.1 = v).map fun entry =>
      entry.1.2 := by
  rw [filter_linksBySource, callees, InsertionMap.keys, List.filter_map, List.map_map]
  rfl

/-- Links that are put in by source stay as they are. -/
theorem linksBySource_of_entries (hvertices : g'.vertices = g.vertices)
    (hentries : g'.links.entries = g.linksBySource) : g'.linksBySource = g.linksBySource := by
  rw [linksBySource, hvertices, hentries, linksBySource]
  exact List.flatMap_congr fun v _ => g.filter_linksBySource v

theorem linksBySource_mapRecords (f : String → String → ρ → ρ) (g : Digraph ρ) :
    (g.mapRecords f).linksBySource =
      g.linksBySource.map fun entry => (entry.1, entry.2.map (f entry.1.1 entry.1.2)) := by
  rw [linksBySource, linksBySource, List.map_flatMap]
  refine List.flatMap_congr fun v _ => ?_
  rw [links_mapRecords, InsertionMap.mapValues, List.filter_map]
  rfl

/-- Graphs with the same links by source have the same links. -/
theorem links_iff_of_linksBySource_eq (h : g'.linksBySource = g.linksBySource) (u v : String) :
    g'.Links u v ↔ g.Links u v := by
  have hkeys : (g'.linksBySource.map Prod.fst).Perm (g.linksBySource.map Prod.fst) := by rw [h]
  have hperm := ((g'.linksBySource_perm.map Prod.fst).symm.trans hkeys).trans
    (g.linksBySource_perm.map Prod.fst)
  exact hperm.mem_iff

/-- Graphs with the same links by source have the same callers, in some order. -/
theorem callers_perm_of_linksBySource_eq (h : g'.linksBySource = g.linksBySource) (v : String) :
    (g'.callers v).Perm (g.callers v) := by
  refine (List.perm_ext_iff_of_nodup (g'.callers_nodup v) (g.callers_nodup v)).mpr fun u => ?_
  rw [mem_callers_iff, mem_callers_iff]
  exact links_iff_of_linksBySource_eq h u v

theorem callees_eq_of_linksBySource_eq (h : g'.linksBySource = g.linksBySource) (v : String) :
    g'.callees v = g.callees v := by
  rw [callees_eq_linksBySource, callees_eq_linksBySource, h]

end ApiDrift.Digraph
