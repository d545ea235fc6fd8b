import ApiDrift.Proofs.CallGraph.BySource
import ApiDrift.Proofs.CallGraph.Recursion
import Mathlib.Algebra.BigOperators.Group.List.Basic
import Mathlib.Algebra.Ring.Int.Defs

set_option autoImplicit false

/-!
# Assembled graphs merge their calls

Symbols, links and neighbours of an assembled graph stand in the order in which the
records first mention them.  All calls between two symbols become one, which counts as
often as they do together, so that no count is lost and none is added.
-/

namespace ApiDrift

/-- The number of calls that records count together. -/
def totalCalls (edges : List Edge) : Int := (edges.map Edge.callCount).sum

theorem Digraph.vertices_addVertex_eq_addNew {ρ : Type} (g : Digraph ρ) (v : String) :
    (g.addVertex v).vertices = addNew g.vertices v := by
  rw [vertices_addVertex, addNew]

namespace CallGraph

variable {nodes : List Node} {edges : List Edge}

/-! ## Order of first mention -/

/-- The symbols of records in the order in which they are first mentioned: those with a
record of their own, then the ends of calls. -/
def mentioned (nodes : List Node) (edges : List Edge) : List String :=
  (nodes.map Node.id ++ endpoints edges).eraseDups

theorem keys_collectNodes (nodes : List Node) (edges : List Edge) :
    (collectNodes nodes edges).keys = mentioned nodes edges := by
  have hrecords : (InsertionMap.ofList (nodes.map fun n => (n.id, n))).keys =
      (nodes.map Node.id).eraseDups := by
    rw [InsertionMap.ofList, view_foldl InsertionMap.keys _ Prod.fst
      (fun m e => m.keys_insert e.1 e.2) ∅ List.nodup_nil, List.map_map]
    rfl
  rw [collectNodes, view_foldl InsertionMap.keys _ id
    (fun m ref => m.keys_claim ref (placeholder ref)) _ (InsertionMap.keys_nodup _), hrecords]
  rw [List.map_id, eraseDups_eraseDups_append, mentioned]

theorem vertices_foldl_takeIn (calls : Digraph Edge) (edges : List Edge) :
    (edges.foldl takeIn calls).vertices = (calls.vertices ++ endpoints edges).eraseDups := by
  rw [← foldl_addNew calls.vertices_nodup, endpoints, List.foldl_flatMap]
  refine (List.foldl_hom Digraph.vertices fun calls e => ?_).symm
  change addNew (addNew calls.vertices e.source) e.target =
    ((calls.addVertex e.source).addVertex e.target).vertices
  rw [Digraph.vertices_addVertex_eq_addNew, Digraph.vertices_addVertex_eq_addNew]

/-- All ends of calls have a record by the time the calls are taken in. -/
theorem vertices_collectCalls (nodes : List Node) (edges : List Edge) :
    (collectCalls (collectNodes nodes edges) edges).vertices = mentioned nodes edges := by
  rw [collectCalls_eq_foldl, vertices_foldl_takeIn]
  change ((collectNodes nodes edges).keys ++ endpoints edges).eraseDups = _
  rw [keys_collectNodes, mentioned, eraseDups_eraseDups_append]
  exact eraseDups_append_of_subset (List.subset_append_right _ _)

theorem links_takeIn (calls : Digraph Edge) (e : Edge) :
    (takeIn calls e).links = calls.links.alter e.ends fun old => some (mergeCalls e old.join) :=
  rfl

theorem links_foldl_takeIn (edges : List Edge) (calls : Digraph Edge) :
    (edges.foldl takeIn calls).links =
      edges.foldl (fun links e => links.alter e.ends fun old => some (mergeCalls e old.join))
        calls.links :=
  (List.foldl_hom Digraph.links fun calls e => (links_takeIn calls e).symm).symm

theorem keys_links_collectCalls (nodes : InsertionMap String Node) (edges : List Edge) :
    (collectCalls nodes edges).links.keys = (edges.map Edge.ends).eraseDups := by
  rw [collectCalls_eq_foldl, links_foldl_takeIn, view_foldl InsertionMap.keys _ Edge.ends
    (fun links e => links.keys_alter e.ends _) _ (InsertionMap.keys_nodup _)]
  rfl

theorem vertices_build (nodes : List Node) (edges : List Edge) :
    (build nodes edges).calls.vertices = mentioned nodes edges :=
  vertices_collectCalls nodes edges

theorem keys_nodes_build (nodes : List Node) (edges : List Edge) :
    (build nodes edges).nodes.keys = mentioned nodes edges := by
  rw [build, InsertionMap.keys_mapValues, keys_collectNodes]

theorem keys_links_build (nodes : List Node) (edges : List Edge) :
    (build nodes edges).calls.links.keys = (edges.map Edge.ends).eraseDups := by
  rw [← keys_links_collectCalls (collectNodes nodes edges)]
  exact InsertionMap.keys_mapValues _ _

/-! ## Neighbours -/

/-- Links into one symbol are told apart by where they come from. -/
theorem callers_build (nodes : List Node) (edges : List Edge) (target : String) :
    (build nodes edges).callers target =
      ((edges.filter fun e => e.target = target).map Edge.source).eraseDups := by
  rw [callers, Digraph.callers, keys_links_build,
    map_filter_eraseDups fun _ _ hsame hsource => Prod.ext hsource hsame,
    List.filter_map, List.map_map]
  rfl

/-- Links out of one symbol are told apart by where they lead. -/
theorem callees_build (nodes : List Node) (edges : List Edge) (source : String) :
    (build nodes edges).callees source =
      ((edges.filter fun e => e.source = source).map Edge.target).eraseDups := by
  rw [callees, Digraph.callees, keys_links_build,
    map_filter_eraseDups fun _ _ hsame htarget => Prod.ext hsame htarget,
    List.filter_map, List.map_map]
  rfl

/-! ## Counts -/

/-- How many calls the record of a link counts. -/
def countOn (calls : Digraph Edge) (link : String × String) : Int :=
  (calls.links.get? link).join.elim 0 Edge.callCount

theorem totalCalls_cons (e : Edge) (edges : List Edge) :
    totalCalls (e :: edges) = e.callCount + totalCalls edges :=
  List.sum_cons

/-- A call adds its count on its own link. -/
theorem countOn_takeIn (calls : Digraph Edge) (e : Edge) (link : String × String) :
    countOn (takeIn calls e) link =
      countOn calls link + if e.ends = link then e.callCount else 0 := by
  rw [countOn, links_takeIn, InsertionMap.get?_alter]
  by_cases hlink : e.ends = link
  · rw [hlink, if_pos rfl, if_pos rfl, countOn]
    cases (calls.links.get? link).join <;> simp [mergeCalls]
  · rw [if_neg (Ne.symm hlink), if_neg hlink, countOn, Int.add_zero]

theorem countOn_foldl_takeIn (edges : List Edge) (calls : Digraph Edge)
    (link : String × String) :
    countOn (edges.foldl takeIn calls) link =
      countOn calls link + totalCalls (edges.filter fun e => e.ends = link) := by
  induction edges generalizing calls with
  | nil => simp [totalCalls]
  | cons e edges ih =>
    rw [List.foldl_cons, ih, countOn_takeIn, Int.add_assoc, List.filter_cons]
    by_cases hlink : e.ends = link <;> simp [hlink, totalCalls_cons]

theorem countOn_collectCalls (nodes : InsertionMap String Node) (edges : List Edge)
    (link : String × String) :
    countOn (collectCalls nodes edges) link =
      totalCalls (edges.filter fun e => e.ends = link) := by
  rw [collectCalls_eq_foldl, countOn_foldl_takeIn]
  exact Int.zero_add _

/-- A call of an assembled graph counts what all records of it count together. -/
theorem callCount_of_mem_edges_build {e : Edge} (h : e ∈ (build nodes edges).edges) :
    e.callCount = totalCalls (edges.filter fun e' => e'.ends = e.ends) := by
  obtain ⟨merged, hmem, rfl⟩ := mem_edges_build_iff.mp h
  have hget := InsertionMap.get?_eq_some_iff.mpr hmem
  calc merged.callCount
      = countOn (collectCalls (collectNodes nodes edges) edges) merged.ends := by
        rw [countOn, Edge.ends, hget]
        rfl
    _ = totalCalls (edges.filter fun e' => e'.ends = merged.ends) := countOn_collectCalls _ _ _

/-- A list without repetition holds what stands at one of its elements once. -/
theorem sum_map_ite_eq_of_nodup {α : Type} [DecidableEq α] {l : List α} (hnodup : l.Nodup)
    {a : α} (ha : a ∈ l) (count : Int) : (l.map fun b => if b = a then count else 0).sum = count := by
  rw [List.sum_map_ite_eq, List.count_eq_one_of_mem hnodup ha]
  simp

/-- The counts of calls add up link by link. -/
theorem sum_totalCalls_by_ends {links : List (String × String)} (hnodup : links.Nodup)
    (hall : ∀ e ∈ edges, e.ends ∈ links) :
    (links.map fun link => totalCalls (edges.filter fun e => e.ends = link)).sum =
      totalCalls edges := by
  induction edges with
  | nil => simp [totalCalls]
  | cons e edges ih =>
    -- the first call counts on its own link only, which stands among the links once
    have hsplit : ∀ link, totalCalls ((e :: edges).filter fun e => e.ends = link) =
        (if link = e.ends then e.callCount else 0) +
          totalCalls (edges.filter fun e => e.ends = link) := by
      intro link
      rw [List.filter_cons]
      by_cases hlink : e.ends = link
      · simp [hlink, totalCalls_cons]
      · simp [hlink, Ne.symm hlink]
    simp only [hsplit, List.sum_map_add]
    rw [sum_map_ite_eq_of_nodup hnodup (hall e List.mem_cons_self),
      ih fun e he => hall e (List.mem_cons_of_mem _ he), totalCalls_cons]

/-! ## Calls of the assembled graph -/

theorem labelled_build (nodes : List Node) (edges : List Edge) :
    Labelled (build nodes edges).calls := by
  intro entry hentry
  obtain ⟨given, hmem, rfl⟩ := List.mem_map.mp hentry
  obtain ⟨e, rfl⟩ := (labelled_collectCalls _ _).exists_eq hmem
  exact ⟨_, rfl, rfl⟩

/-- Where every link has a record, the calls are the records of the links. -/
theorem linksBySource_eq_map_edges {g : CallGraph} (h : Labelled g.calls) :
    g.calls.linksBySource = g.edges.map fun e => (e.ends, some e) := by
  rw [CallGraph.edges, List.map_map]
  refine (List.map_id _).symm.trans (List.map_congr_left fun entry hentry => ?_)
  obtain ⟨e, rfl⟩ := h.exists_eq (Digraph.mem_linksBySource_iff.mp hentry)
  rfl

theorem map_ends_edges {g : CallGraph} (h : Labelled g.calls) :
    g.edges.map Edge.ends = g.calls.linksBySource.map Prod.fst := by
  rw [linksBySource_eq_map_edges h, List.map_map]
  rfl

theorem map_ends_edges_build_perm (nodes : List Node) (edges : List Edge) :
    ((build nodes edges).edges.map Edge.ends).Perm (edges.map Edge.ends).eraseDups := by
  rw [map_ends_edges (labelled_build nodes edges), ← keys_links_build nodes]
  exact (Digraph.linksBySource_perm _).map Prod.fst

theorem map_ends_edges_build_nodup (nodes : List Node) (edges : List Edge) :
    ((build nodes edges).edges.map Edge.ends).Nodup :=
  (map_ends_edges_build_perm nodes edges).nodup_iff.mpr (eraseDups_nodup _)

theorem mem_map_ends_edges_build_iff {link : String × String} :
    link ∈ (build nodes edges).edges.map Edge.ends ↔ link ∈ edges.map Edge.ends := by
  rw [(map_ends_edges_build_perm nodes edges).mem_iff, List.mem_eraseDups]

theorem totalCalls_edges_build (nodes : List Node) (edges : List Edge) :
    totalCalls (build nodes edges).edges = totalCalls edges := by
  have hcounts : (build nodes edges).edges.map Edge.callCount =
      ((build nodes edges).edges.map Edge.ends).map fun link =>
        totalCalls (edges.filter fun e => e.ends = link) := by
    rw [List.map_map]
    exact List.map_congr_left fun e he => callCount_of_mem_edges_build he
  rw [totalCalls, hcounts]
  refine sum_totalCalls_by_ends (map_ends_edges_build_nodup nodes edges) fun e he => ?_
  exact mem_map_ends_edges_build_iff.mpr (List.mem_map_of_mem he)

/-- Between two symbols there is one call of the assembled graph if there is any call, and
it counts what all of them count. -/
theorem callCounts_between_build (nodes : List Node) (edges : List Edge) (s t : String) :
    ((build nodes edges).edges.filter fun e => e.ends = (s, t)).map Edge.callCount =
      if ∃ e ∈ edges, e.ends = (s, t) then [totalCalls (edges.filter fun e => e.ends = (s, t))]
      else [] := by
  have hlink : (s, t) ∈ (build nodes edges).edges.map Edge.ends ↔ ∃ e ∈ edges, e.ends = (s, t) := by
    rw [mem_map_ends_edges_build_iff, List.mem_map]
  by_cases hcall : ∃ e ∈ edges, e.ends = (s, t)
  · rw [if_pos hcall]
    obtain ⟨e, he, hends⟩ := List.mem_map.mp (hlink.mpr hcall)
    rw [← hends, Keyed.filter_eq_singleton (map_ends_edges_build_nodup nodes edges) he,
      List.map_singleton, callCount_of_mem_edges_build he]
  · have hnone : ((build nodes edges).edges.filter fun e => e.ends = (s, t)) = [] := by
      refine List.filter_eq_nil_iff.mpr fun e he hends => hcall ?_
      exact hlink.mp (List.mem_map.mpr ⟨e, he, of_decide_eq_true hends⟩)
    rw [if_neg hcall, hnone, List.map_nil]

/-! ## Main statement -/

/-- An assembled graph has its symbols and neighbours in the order in which the records
first mention them, has one call between two symbols exactly if the records have any, and
counts on it what they count together: no call is lost, none is added, and callers and
callees are two views of the same calls. -/
theorem build_merges_exactly (nodes : List Node) (edges : List Edge) :
    let g := build nodes edges
    (g.nodes.keys = mentioned nodes edges ∧ g.calls.vertices = mentioned nodes edges) ∧
    (∀ s t, (g.edges.filter fun e => e.ends = (s, t)).map Edge.callCount =
      if ∃ e ∈ edges, e.ends = (s, t) then [totalCalls (edges.filter fun e => e.ends = (s, t))]
      else []) ∧
    (∀ t, g.callers t = ((edges.filter fun e => e.target = t).map Edge.source).eraseDups) ∧
    (∀ s, g.callees s = ((edges.filter fun e => e.source = s).map Edge.target).eraseDups) ∧
    (∀ u v, u ∈ g.callers v ↔ v ∈ g.callees u) ∧
    totalCalls g.edges = totalCalls edges := by
  intro g
  refine ⟨⟨keys_nodes_build nodes edges, vertices_build nodes edges⟩,
    callCounts_between_build nodes edges, callers_build nodes edges, callees_build nodes edges,
    fun u v => ?_, totalCalls_edges_build nodes edges⟩
  exact Digraph.mem_callers_iff.trans Digraph.mem_callees_iff.symm

/-- A repeated call keeps its first place and adds up; a self call is a call like others. -/
example :
    let g := build [{ id := "b" }]
      [⟨"a", "b", 2, false⟩, ⟨"b", "b", 1, false⟩, ⟨"c", "b", 4, false⟩, ⟨"a", "b", 3, false⟩]
    g.nodes.keys = ["b", "a", "c"] ∧ g.callers "b" = ["a", "b", "c"] ∧
      g.edges.map Edge.callCount = [1, 5, 4] := by
  decide +kernel

end CallGraph

end ApiDrift
