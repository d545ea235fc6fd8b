import ApiDrift.CallGraph.Assembly
import ApiDrift.Proofs.Distinct

set_option autoImplicit false

/-!
# What assembling a call graph keeps of the records

The calls are taken in one by one.  After any number of them two symbols are
linked exactly if one of the calls taken in is between them, and the record of
every link names the two ends of the link.  The flags that extracted calls carry
are overwritten, so they leave no mark on the graph.  A symbol has the last record that
is given for it, and a placeholder if there is none and a call has it at an end.
-/

namespace ApiDrift

/-- The two ends of a call. -/
def Edge.ends (e : Edge) : String × String := (e.source, e.target)

namespace CallGraph

/-! ## Taking in calls -/

/-- The graph with one more call taken in. -/
def takeIn (calls : Digraph Edge) (e : Edge) : Digraph Edge :=
  calls.connect e.source e.target fun old => some (mergeCalls e old)

theorem collectCalls_eq_foldl (nodes : InsertionMap String Node) (edges : List Edge) :
    collectCalls nodes edges = edges.foldl takeIn (.ofVertices nodes.keys nodes.keys_nodup) :=
  rfl

@[simp] theorem source_mergeCalls (e : Edge) (old : Option Edge) :
    (mergeCalls e old).source = e.source := by
  cases old <;> rfl

@[simp] theorem target_mergeCalls (e : Edge) (old : Option Edge) :
    (mergeCalls e old).target = e.target := by
  cases old <;> rfl

theorem links_foldl_takeIn_iff {edges : List Edge} {calls : Digraph Edge} {u v : String} :
    (edges.foldl takeIn calls).Links u v ↔
      calls.Links u v ∨ ∃ e ∈ edges, e.source = u ∧ e.target = v := by
  induction edges generalizing calls with
  | nil => simp
  | cons e edges ih =>
    rw [List.foldl_cons, ih, takeIn, Digraph.links_connect_iff, or_assoc]
    simp only [List.mem_cons, exists_eq_or_imp, eq_comm (a := u), eq_comm (a := v)]

/-- Two symbols are linked exactly if there is a call between them. -/
theorem links_collectCalls_iff {nodes : InsertionMap String Node} {edges : List Edge}
    {u v : String} :
    (collectCalls nodes edges).Links u v ↔ ∃ e ∈ edges, e.source = u ∧ e.target = v := by
  rw [collectCalls_eq_foldl, links_foldl_takeIn_iff]
  simp [Digraph.Links, Digraph.ofVertices]

/-- Every link has a record, and the record names the ends of the link. -/
def Labelled (calls : Digraph Edge) : Prop :=
  ∀ entry ∈ calls.links.entries, ∃ e, entry.2 = some e ∧ (e.source, e.target) = entry.1

theorem labelled_takeIn {calls : Digraph Edge} (h : Labelled calls) (e : Edge) :
    Labelled (takeIn calls e) := by
  intro ⟨link, record⟩ hmem
  have hget : (takeIn calls e).links.get? link = some record :=
    InsertionMap.get?_eq_some_iff.mpr hmem
  rw [takeIn, Digraph.links_connect, InsertionMap.get?_alter] at hget
  split at hget
  · rename_i hlink
    cases hget
    exact ⟨_, rfl, by rw [source_mergeCalls, target_mergeCalls, hlink]⟩
  · exact h _ (InsertionMap.get?_eq_some_iff.mp hget)

theorem labelled_collectCalls (nodes : InsertionMap String Node) (edges : List Edge) :
    Labelled (collectCalls nodes edges) := by
  rw [collectCalls_eq_foldl]
  have hrun : ∀ calls : Digraph Edge, Labelled calls → Labelled (edges.foldl takeIn calls) := by
    induction edges with
    | nil => exact fun calls h => h
    | cons e edges ih => exact fun calls h => ih _ (labelled_takeIn h e)
  refine hrun _ fun entry hmem => ?_
  simp [Digraph.ofVertices, EmptyCollection.emptyCollection] at hmem

theorem Labelled.exists_eq {calls : Digraph Edge} (h : Labelled calls)
    {entry : (String × String) × Option Edge} (hentry : entry ∈ calls.links.entries) :
    ∃ e, entry = (Edge.ends e, some e) := by
  obtain ⟨e, hrecord, hends⟩ := h entry hentry
  exact ⟨e, Prod.ext hends.symm hrecord⟩

/-! ## Records of symbols -/

/-- The record given for a reference; the last one where several are given. -/
def given? (nodes : List Node) (ref : String) : Option Node :=
  nodes.reverse.find? fun n => n.id = ref

theorem given?_eq_none_iff {nodes : List Node} {ref : String} :
    given? nodes ref = none ↔ ref ∉ nodes.map Node.id := by
  rw [given?, Keyed.find?_eq_none_iff, List.map_reverse, List.mem_reverse]

theorem given?_eq_some_iff {nodes : List Node} (hids : (nodes.map Node.id).Nodup) {ref : String}
    {n : Node} : given? nodes ref = some n ↔ n ∈ nodes ∧ n.id = ref := by
  have hreverse : (nodes.reverse.map Node.id).Nodup := by
    rw [List.map_reverse, List.nodup_iff_pairwise_ne, List.pairwise_reverse]
    exact hids.imp Ne.symm
  rw [given?, Keyed.find?_eq_some_iff hreverse, List.mem_reverse]

theorem get?_ofList_nodes (nodes : List Node) (ref : String) :
    (InsertionMap.ofList (nodes.map fun n => (n.id, n))).get? ref = given? nodes ref := by
  rw [InsertionMap.get?_ofList, ← List.map_reverse, List.find?_map, Option.map_map]
  exact Option.map_id'

theorem find?_placeholders (refs : List String) (ref : String) :
    (((refs.map fun r => (r, placeholder r)).find? fun e => e.1 = ref).map Prod.snd) =
      if ref ∈ refs then some (placeholder ref) else none := by
  rw [List.find?_map, Option.map_map]
  induction refs with
  | nil => rfl
  | cons r refs ih =>
    by_cases hr : r = ref
    · simp [hr]
    · simpa [hr, Ne.symm hr] using ih

/-- A symbol has the record given for it, or else a placeholder if it is an end of a
call. -/
theorem get?_collectNodes (nodes : List Node) (edges : List Edge) (ref : String) :
    (collectNodes nodes edges).get? ref =
      (given? nodes ref).or
        (if ref ∈ endpoints edges then some (placeholder ref) else none) := by
  have hpairs : collectNodes nodes edges =
      ((endpoints edges).map fun r => (r, placeholder r)).foldl (fun m e => m.claim e.1 e.2)
        (.ofList (nodes.map fun n => (n.id, n))) := by
    rw [List.foldl_map]
    rfl
  rw [hpairs, InsertionMap.get?_foldl_claim, get?_ofList_nodes, find?_placeholders]

theorem mem_keys_collectNodes_iff {nodes : List Node} {edges : List Edge} {ref : String} :
    ref ∈ (collectNodes nodes edges).keys ↔
      ref ∈ nodes.map Node.id ∨ ref ∈ endpoints edges := by
  rw [← Decidable.not_iff_not, ← InsertionMap.get?_eq_none_iff, get?_collectNodes,
    Option.or_eq_none_iff, given?_eq_none_iff, not_or]
  simp

theorem mem_vertices_foldl_takeIn_iff {edges : List Edge} {calls : Digraph Edge} {ref : String} :
    ref ∈ (edges.foldl takeIn calls).vertices ↔
      ref ∈ calls.vertices ∨ ref ∈ endpoints edges := by
  induction edges generalizing calls with
  | nil => simp [endpoints]
  | cons e edges ih =>
    rw [List.foldl_cons, ih, takeIn, Digraph.mem_vertices_connect]
    simp only [endpoints, List.flatMap_cons, List.mem_append, List.mem_cons, List.not_mem_nil,
      or_false, or_assoc]

/-- An assembled graph knows the symbols with a record and the ends of calls. -/
theorem contains_build_iff {nodes : List Node} {edges : List Edge} {ref : String} :
    (build nodes edges).contains ref = true ↔
      ref ∈ nodes.map Node.id ∨ ref ∈ endpoints edges := by
  have hvertices : ref ∈ (build nodes edges).calls.vertices ↔
      ref ∈ (collectNodes nodes edges).keys ∨ ref ∈ endpoints edges :=
    mem_vertices_foldl_takeIn_iff
  have hkeys : ref ∈ (build nodes edges).nodes.keys ↔ ref ∈ (collectNodes nodes edges).keys := by
    rw [build, InsertionMap.keys_mapValues]
  rw [contains, Bool.or_eq_true, InsertionMap.contains_iff, List.contains_iff_mem, hvertices,
    hkeys, mem_keys_collectNodes_iff]
  exact or_iff_left_of_imp fun h => h.elim id .inr

theorem node?_build (nodes : List Node) (edges : List Edge) (ref : String) :
    (build nodes edges).node? ref =
      ((given? nodes ref).or
        (if ref ∈ endpoints edges then some (placeholder ref) else none)).map
          (deriveFlags (collectCalls (collectNodes nodes edges) edges) ref) := by
  rw [← get?_collectNodes, node?, build, InsertionMap.get?_mapValues]

end CallGraph

end ApiDrift
