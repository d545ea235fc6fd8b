import ApiDrift.Proofs.CallGraph.Assembly
import ApiDrift.Proofs.CallGraph.Components

set_option autoImplicit false

/-!
# Recursive calls lie on cycles

The recursive calls of an assembled graph are read off its strongly connected
components.  So a call is marked exactly if calls lead from its target back to its
source, be it in no step at all.  The marks that extracted calls come with play no
part: calls that differ in their marks alone make up the same graph.
-/

namespace ApiDrift

/-- A call without its mark. -/
def Edge.unmarked (e : Edge) : Edge := { e with isRecursive := false }

namespace CallGraph

/-! ## Marks of the assembled calls -/

theorem mem_edges_iff {g : CallGraph} {e : Edge} :
    e ∈ g.edges ↔
      ∃ entry ∈ g.calls.links.entries, entry.2.getD ⟨entry.1.1, entry.1.2, 1, false⟩ = e := by
  simp only [edges, List.mem_map, Digraph.mem_linksBySource_iff]

theorem links_build_iff {nodes : List Node} {edges : List Edge} {u v : String} :
    (build nodes edges).calls.Links u v ↔
      (collectCalls (collectNodes nodes edges) edges).Links u v :=
  Digraph.links_mapRecords_iff

/-- The calls of an assembled graph are the merged calls, marked anew. -/
theorem mem_edges_build_iff {nodes : List Node} {edges : List Edge} {e : Edge} :
    e ∈ (build nodes edges).edges ↔
      ∃ merged, ((merged.source, merged.target), some merged) ∈
          (collectCalls (collectNodes nodes edges) edges).links.entries ∧
        e = { merged with
          isRecursive :=
            ((collectCalls (collectNodes nodes edges) edges).cycleTable.getD
              merged.source []).contains merged.target } := by
  have hlabelled := labelled_collectCalls (collectNodes nodes edges) edges
  rw [mem_edges_iff]
  change (∃ entry ∈ (markRecursive (collectCalls (collectNodes nodes edges) edges)).links.entries,
    _) ↔ _
  generalize collectCalls (collectNodes nodes edges) edges = calls at hlabelled ⊢
  simp only [markRecursive, Digraph.links_mapRecords, InsertionMap.mapValues, List.mem_map]
  constructor
  · intro h
    obtain ⟨_, ⟨entry, hmem, rfl⟩, rfl⟩ := h
    obtain ⟨merged, rfl⟩ := hlabelled.exists_eq hmem
    exact ⟨merged, hmem, rfl⟩
  · intro h
    obtain ⟨merged, hmem, rfl⟩ := h
    exact ⟨_, ⟨_, hmem, rfl⟩, rfl⟩

theorem isRecursive_of_mem_edges_build {nodes : List Node} {edges : List Edge} {e : Edge}
    (h : e ∈ (build nodes edges).edges) :
    e.isRecursive = true ↔ ∃ n, Walk (build nodes edges).calls.Links n e.target e.source := by
  have hlinks : (build nodes edges).calls.Links =
      (collectCalls (collectNodes nodes edges) edges).Links := by
    funext u v
    exact propext links_build_iff
  obtain ⟨merged, hmem, rfl⟩ := mem_edges_build_iff.mp h
  have hlink : (collectCalls (collectNodes nodes edges) edges).Links merged.source merged.target :=
    List.mem_map_of_mem hmem
  rw [hlinks]
  exact Digraph.contains_cycleTable_iff.trans (and_iff_right hlink)

/-- Every link of an assembled graph is one of its calls. -/
theorem links_build_iff_mem_edges {nodes : List Node} {edges : List Edge} {u v : String} :
    (build nodes edges).calls.Links u v ↔
      ∃ e ∈ (build nodes edges).edges, e.source = u ∧ e.target = v := by
  rw [links_build_iff]
  constructor
  · intro hlink
    obtain ⟨entry, hmem, hends⟩ := List.mem_map.mp hlink
    obtain ⟨merged, rfl⟩ := (labelled_collectCalls _ _).exists_eq hmem
    obtain ⟨rfl, rfl⟩ := Prod.mk.inj hends
    exact ⟨_, mem_edges_build_iff.mpr ⟨merged, hmem, rfl⟩, rfl, rfl⟩
  · intro h
    obtain ⟨e, he, rfl, rfl⟩ := h
    obtain ⟨merged, hmem, rfl⟩ := mem_edges_build_iff.mp he
    exact List.mem_map_of_mem hmem

/-- The marked calls are the links read off the strongly connected components, whichever way
these are found and ordered. -/
theorem isRecursive_iff_mem_linksOnCycles {nodes : List Node} {edges : List Edge}
    {components : List (List String)}
    (h : (build nodes edges).calls.AreComponents (build nodes edges).calls.vertices components)
    {e : Edge} (he : e ∈ (build nodes edges).edges) :
    e.isRecursive = true ↔
      (e.source, e.target) ∈ (build nodes edges).calls.linksOnCycles components := by
  have hlink : (build nodes edges).calls.Links e.source e.target :=
    links_build_iff_mem_edges.mpr ⟨e, he, rfl, rfl⟩
  rw [h.mem_linksOnCycles_iff, and_iff_right hlink]
  exact isRecursive_of_mem_edges_build he

/-! ## Marks of the extracted calls -/

theorem endpoints_map_unmarked (edges : List Edge) :
    endpoints (edges.map Edge.unmarked) = endpoints edges := by
  rw [endpoints, List.flatMap_map]
  rfl

/-- Taking a call in without its mark leaves the graph as it is but for marks. -/
theorem mapRecords_unmarked_takeIn (calls : Digraph Edge) (e : Edge) :
    (takeIn calls e).mapRecords (fun _ _ => Edge.unmarked) =
      takeIn (calls.mapRecords fun _ _ => Edge.unmarked) e.unmarked := by
  refine Digraph.mapRecords_connect fun old => ?_
  cases old <;> rfl

theorem collectCalls_map_unmarked (nodes : InsertionMap String Node) (edges : List Edge) :
    collectCalls nodes (edges.map Edge.unmarked) =
      (collectCalls nodes edges).mapRecords fun _ _ => Edge.unmarked := by
  rw [collectCalls_eq_foldl, collectCalls_eq_foldl]
  have hrun : ∀ calls : Digraph Edge,
      (edges.map Edge.unmarked).foldl takeIn (calls.mapRecords fun _ _ => Edge.unmarked) =
        (edges.foldl takeIn calls).mapRecords fun _ _ => Edge.unmarked := by
    induction edges with
    | nil => exact fun calls => rfl
    | cons e edges ih =>
      intro calls
      rw [List.map_cons, List.foldl_cons, List.foldl_cons, ← mapRecords_unmarked_takeIn, ih]
  exact hrun (.ofVertices nodes.keys nodes.keys_nodup)

/-- Assembling a graph overwrites the marks of the calls. -/
theorem build_map_unmarked (nodes : List Node) (edges : List Edge) :
    build nodes (edges.map Edge.unmarked) = build nodes edges := by
  have hnodes : collectNodes nodes (edges.map Edge.unmarked) = collectNodes nodes edges := by
    rw [collectNodes, endpoints_map_unmarked]
    rfl
  rw [build, build, hnodes, collectCalls_map_unmarked]
  generalize collectCalls (collectNodes nodes edges) edges = calls
  have hflags : deriveFlags (calls.mapRecords fun _ _ => Edge.unmarked) = deriveFlags calls := by
    funext ref n
    rw [deriveFlags, deriveFlags, Digraph.callers_mapRecords, Digraph.callees_mapRecords]
  have hmarks : markRecursive (calls.mapRecords fun _ _ => Edge.unmarked) =
      markRecursive calls := by
    rw [markRecursive, Digraph.cycleTable_mapRecords, Digraph.mapRecords_mapRecords]
    rfl
  simp only [hflags, hmarks]

/-! ## Main statement -/

/-- A call of an assembled graph is marked exactly if the links, which are its calls
and those that were extracted, lead from the target back to the source.  Marks given
with the extracted calls change nothing. -/
theorem isRecursive_iff_leads_back (nodes : List Node) (edges : List Edge) :
    (∀ e ∈ (build nodes edges).edges,
      e.isRecursive = true ↔
        ∃ n, Walk (build nodes edges).calls.Links n e.target e.source) ∧
    (∀ u v, (build nodes edges).calls.Links u v ↔
      ∃ e ∈ (build nodes edges).edges, e.source = u ∧ e.target = v) ∧
    (∀ u v, (build nodes edges).calls.Links u v ↔ ∃ e ∈ edges, e.source = u ∧ e.target = v) ∧
    ∀ edges' : List Edge, edges'.map Edge.unmarked = edges.map Edge.unmarked →
      build nodes edges' = build nodes edges := by
  refine ⟨fun e he => isRecursive_of_mem_edges_build he,
    fun u v => links_build_iff_mem_edges, fun u v => ?_, fun edges' hsame => ?_⟩
  · rw [links_build_iff, links_collectCalls_iff]
  · rw [← build_map_unmarked nodes edges', hsame, build_map_unmarked]

/-- Of three calls given with the wrong marks two make up a cycle and the third
leaves it: calls lead from `b` back to `a`, but none from `c`. -/
theorem isRecursive_iff_leads_back_two_cycle :
    let given : List Edge := [⟨"a", "b", 2, false⟩, ⟨"b", "a", 1, false⟩, ⟨"b", "c", 1, true⟩]
    let bare : List Edge := [⟨"a", "b", 2, false⟩, ⟨"b", "a", 1, false⟩, ⟨"b", "c", 1, false⟩]
    (⟨"a", "b", 2, true⟩ ∈ (build [] given).edges ∧
      ∃ n, Walk (build [] given).calls.Links n "b" "a") ∧
    (⟨"b", "c", 1, false⟩ ∈ (build [] given).edges ∧
      ¬ ∃ n, Walk (build [] given).calls.Links n "c" "b") ∧
    (bare.map Edge.unmarked = given.map Edge.unmarked ∧ build [] bare = build [] given) := by
  intro given bare
  have hback : (⟨"a", "b", 2, true⟩ : Edge) ∈ (build [] given).edges := by decide +kernel
  have hout : (⟨"b", "c", 1, false⟩ : Edge) ∈ (build [] given).edges := by decide +kernel
  have hbare : bare.map Edge.unmarked = given.map Edge.unmarked := rfl
  obtain ⟨hmarks, _, _, hgiven⟩ := isRecursive_iff_leads_back [] given
  refine ⟨⟨hback, (hmarks _ hback).mp rfl⟩, ⟨hout, fun hwalk => ?_⟩, hbare, hgiven bare hbare⟩
  exact Bool.false_ne_true ((hmarks _ hout).mpr hwalk)

end CallGraph

end ApiDrift
