import ApiDrift.Proofs.CallGraph.Merging

set_option autoImplicit false

/-!
# A graph rebuilt from its own view

An assembled graph shows its records and its calls, the calls by caller.  Assembled once
more from these it is the same graph but for the order in which callers are listed: there
is nothing left to merge or to fill in, and every flag and every mark that is derived is
derived again.
-/

namespace ApiDrift

namespace CallGraph

variable {nodes : List Node} {edges : List Edge}

/-! ## Records under their own reference -/

@[simp] theorem id_placeholder (ref : String) : (placeholder ref).id = ref := by
  unfold placeholder
  split <;> rfl

@[simp] theorem id_deriveFlags (calls : Digraph Edge) (ref : String) (n : Node) :
    (deriveFlags calls ref n).id = n.id :=
  rfl

theorem id_of_given? {ref : String} {n : Node} (h : given? nodes ref = some n) : n.id = ref := by
  simpa using List.find?_some h

theorem id_of_mem_entries_collectNodes {entry : String × Node}
    (h : entry ∈ (collectNodes nodes edges).entries) : entry.2.id = entry.1 := by
  have hget := InsertionMap.get?_eq_some_iff.mpr h
  rw [get?_collectNodes] at hget
  rcases Option.or_eq_some_iff.mp hget with hgiven | ⟨_, hplaceholder⟩
  · exact id_of_given? hgiven
  · split at hplaceholder
    · rw [← Option.some.inj hplaceholder, id_placeholder]
    · cases hplaceholder

/-- Records of an assembled graph stand under their own reference. -/
theorem map_id_values_build (nodes : List Node) (edges : List Edge) :
    (build nodes edges).nodes.values.map (fun n => (n.id, n)) =
      (build nodes edges).nodes.entries := by
  rw [InsertionMap.values, List.map_map]
  refine (List.map_congr_left fun entry hentry => ?_).trans (List.map_id _)
  obtain ⟨given, hgiven, rfl⟩ := List.mem_map.mp hentry
  rw [Function.comp_apply, id_deriveFlags, id_of_mem_entries_collectNodes hgiven, id]

/-! ## Collecting once more -/

theorem endpoints_edges_subset {g : CallGraph} (h : Labelled g.calls) :
    endpoints g.edges ⊆ g.calls.vertices := by
  intro ref href
  obtain ⟨e, he, hend⟩ := List.mem_flatMap.mp href
  have hentry : (e.ends, some e) ∈ g.calls.linksBySource := by
    rw [linksBySource_eq_map_edges h]
    exact List.mem_map_of_mem he
  have hends := g.calls.ends_mem e.ends
    (List.mem_map_of_mem (Digraph.mem_linksBySource_iff.mp hentry))
  simp only [List.mem_cons, List.not_mem_nil, or_false] at hend
  rcases hend with rfl | rfl
  · exact hends.1
  · exact hends.2

theorem vertices_build_eq_keys (nodes : List Node) (edges : List Edge) :
    (build nodes edges).calls.vertices = (build nodes edges).nodes.keys := by
  rw [vertices_build, keys_nodes_build]

/-- All records are there already. -/
theorem collectNodes_of_view (nodes : List Node) (edges : List Edge) :
    collectNodes (build nodes edges).nodes.values (build nodes edges).edges =
      (build nodes edges).nodes := by
  have hends : endpoints (build nodes edges).edges ⊆ (build nodes edges).nodes.keys := by
    rw [← vertices_build_eq_keys]
    exact endpoints_edges_subset (labelled_build nodes edges)
  rw [collectNodes, map_id_values_build, InsertionMap.ofList_entries]
  exact InsertionMap.foldl_claim_of_mem hends placeholder

/-- The calls by caller have no two calls to merge, so they become links in their order. -/
theorem entries_links_collectCalls_of_view (records : InsertionMap String Node)
    (nodes : List Node) (edges : List Edge) :
    (collectCalls records (build nodes edges).edges).links.entries =
      (build nodes edges).calls.linksBySource := by
  rw [linksBySource_eq_map_edges (labelled_build nodes edges), collectCalls_eq_foldl,
    links_foldl_takeIn]
  exact InsertionMap.entries_foldl_alter_of_new Edge.ends
    (fun e old => some (mergeCalls e old.join)) (m := ∅) (map_ends_edges_build_nodup nodes edges)

theorem linksBySource_collectCalls_of_view (nodes : List Node) (edges : List Edge) :
    (collectCalls (build nodes edges).nodes (build nodes edges).edges).linksBySource =
      (build nodes edges).calls.linksBySource := by
  refine Digraph.linksBySource_of_entries ?_
    (entries_links_collectCalls_of_view _ nodes edges)
  have hends := endpoints_edges_subset (labelled_build nodes edges)
  rw [collectCalls_eq_foldl, vertices_foldl_takeIn]
  change ((build nodes edges).nodes.keys ++ endpoints (build nodes edges).edges).eraseDups = _
  rw [← vertices_build_eq_keys, eraseDups_append_of_subset hends,
    eraseDups_of_nodup (Digraph.vertices_nodup _)]

/-! ## Deriving once more -/

/-- Flags that are derived from the same neighbours stay as they are. -/
theorem deriveFlags_deriveFlags {calls calls' : Digraph Edge} {ref : String}
    (hcallers : (calls'.callers ref).Perm (calls.callers ref))
    (hcallees : calls'.callees ref = calls.callees ref) (n : Node) :
    deriveFlags calls' ref (deriveFlags calls ref n) = deriveFlags calls ref n := by
  have hothers : (calls'.callers ref).all (· == ref) = (calls.callers ref).all (· == ref) :=
    hcallers.all_eq
  simp only [deriveFlags, hothers, hcallees, Bool.or_assoc, Bool.or_self]

/-- Marks that are derived from the same links stay as they are. -/
theorem linksBySource_markRecursive_of_view (nodes : List Node) (edges : List Edge) :
    (markRecursive (collectCalls (build nodes edges).nodes (build nodes edges).edges)).linksBySource =
      (build nodes edges).calls.linksBySource := by
  have hsame := linksBySource_collectCalls_of_view nodes edges
  -- from here on only the links of what is collected matter, not how it came about
  generalize collectCalls (build nodes edges).nodes (build nodes edges).edges = calls at hsame ⊢
  have hlinks : calls.Links = (build nodes edges).calls.Links := by
    funext u v
    exact propext (Digraph.links_iff_of_linksBySource_eq hsame u v)
  rw [markRecursive, Digraph.linksBySource_mapRecords, hsame,
    linksBySource_eq_map_edges (labelled_build nodes edges), List.map_map]
  refine List.map_congr_left fun e he => ?_
  have hlink : (build nodes edges).calls.Links e.source e.target :=
    links_build_iff_mem_edges.mpr ⟨e, he, rfl, rfl⟩
  have hmark : (calls.cycleTable.getD e.source []).contains e.target = e.isRecursive := by
    rw [Bool.eq_iff_iff, Digraph.contains_cycleTable_iff, hlinks, and_iff_right hlink,
      isRecursive_of_mem_edges_build he]
  simp only [Function.comp_apply, Option.map_some, Edge.ends, hmark]

theorem linksBySource_calls_of_view (nodes : List Node) (edges : List Edge) :
    (build (build nodes edges).nodes.values (build nodes edges).edges).calls.linksBySource =
      (build nodes edges).calls.linksBySource := by
  rw [build, collectNodes_of_view]
  exact linksBySource_markRecursive_of_view nodes edges

theorem nodes_build_of_view (nodes : List Node) (edges : List Edge) :
    (build (build nodes edges).nodes.values (build nodes edges).edges).nodes =
      (build nodes edges).nodes := by
  have hsame := linksBySource_collectCalls_of_view nodes edges
  rw [build, collectNodes_of_view]
  refine InsertionMap.mapValues_eq_self fun entry hentry => ?_
  obtain ⟨given, _, rfl⟩ := List.mem_map.mp hentry
  refine deriveFlags_deriveFlags ?_ ?_ given.2
  · have hperm := Digraph.callers_perm_of_linksBySource_eq hsame given.1
    rwa [build, markRecursive, Digraph.callers_mapRecords] at hperm
  · have hcallees := Digraph.callees_eq_of_linksBySource_eq hsame given.1
    rwa [build, markRecursive, Digraph.callees_mapRecords] at hcallees

/-! ## Main statement -/

/-- Assembled once more from the records and the calls that it shows, an assembled graph has
the same records, flags included, in the same order, the same calls with the same counts
and marks, and the same callees, while callers may stand in another order. -/
theorem build_of_own_view (nodes : List Node) (edges : List Edge) :
    let g := build nodes edges
    let g' := build g.nodes.values g.edges
    g'.nodes = g.nodes ∧ g'.edges = g.edges ∧ (∀ ref, g'.callees ref = g.callees ref) ∧
      ∀ ref, (g'.callers ref).Perm (g.callers ref) := by
  intro g g'
  have hlinks : g'.calls.linksBySource = g.calls.linksBySource :=
    linksBySource_calls_of_view nodes edges
  refine ⟨nodes_build_of_view nodes edges, ?_, Digraph.callees_eq_of_linksBySource_eq hlinks,
    Digraph.callers_perm_of_linksBySource_eq hlinks⟩
  rw [CallGraph.edges, hlinks, CallGraph.edges]

/-- Callers are listed as the calls came in, and calls come in by caller the second time. -/
example :
    let g := build [{ id := "a" }, { id := "b" }] [⟨"b", "c", 1, false⟩, ⟨"a", "c", 1, false⟩]
    g.callers "c" = ["b", "a"] ∧ (build g.nodes.values g.edges).callers "c" = ["a", "b"] := by
  decide +kernel

end CallGraph

end ApiDrift
