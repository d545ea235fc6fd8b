import ApiDrift.Proofs.CallGraph.Merging

set_option autoImplicit false

/-!
# Assembling a call graph step by step

Records and links need not be collected one after the other.  A given record comes with
its vertex.  As a call comes in, each end of it that has no record gets a placeholder and
a vertex, and then the call becomes a link, merged with the one that is there.  The
vertices are those of the records all the time, and in their order, so the steps come to
what is collected.
-/

namespace ApiDrift.CallGraph

/-- The records that an assembly has come to, and the links between them. -/
structure Assembly where
  records : InsertionMap String Node
  calls : Digraph Edge

namespace Assembly

/-! ## Steps -/

/-- Takes in a record and its vertex. -/
def addNode (a : Assembly) (n : Node) : Assembly :=
  ⟨a.records.insert n.id n, a.calls.addVertex n.id⟩

/-- Takes in the end of a call: a placeholder and its vertex if there is no record. -/
def addEnd (a : Assembly) (ref : String) : Assembly :=
  if ref ∈ a.records.keys then a
  else ⟨a.records.insert ref (placeholder ref), a.calls.addVertex ref⟩

/-- Links the ends of a call with what it makes together with the earlier calls. -/
def addLink (a : Assembly) (e : Edge) : Assembly :=
  let merged := mergeCalls e (a.calls.links.get? e.ends).join
  ⟨a.records, a.calls.connect e.source e.target fun _ => some merged⟩

/-- Takes in a call: its source, its target, and the link between them. -/
def addCall (a : Assembly) (e : Edge) : Assembly :=
  ((a.addEnd e.source).addEnd e.target).addLink e

/-- Takes in all records and then all calls. -/
def ofRecords (nodes : List Node) (edges : List Edge) : Assembly :=
  edges.foldl addCall (nodes.foldl addNode ⟨∅, ∅⟩)

/-- The vertices are those of the records, in their order. -/
def InStep (a : Assembly) : Prop := a.calls.vertices = a.records.keys

/-! ## What one step does -/

variable {a : Assembly}

theorem InStep.addNode (h : a.InStep) (n : Node) : (a.addNode n).InStep := by
  unfold InStep Assembly.addNode
  rw [Digraph.vertices_addVertex, InsertionMap.keys_insert, h]

theorem InStep.addEnd (h : a.InStep) (ref : String) : (a.addEnd ref).InStep := by
  unfold Assembly.addEnd
  split
  · exact h
  · rw [InStep, Digraph.vertices_addVertex, InsertionMap.keys_insert, h]

theorem records_addEnd (a : Assembly) (ref : String) :
    (a.addEnd ref).records = a.records.claim ref (placeholder ref) := by
  unfold addEnd
  split
  · rename_i hknown
    exact (InsertionMap.claim_of_mem hknown _).symm
  · rename_i hnew
    exact (InsertionMap.claim_of_not_mem hnew _).symm

theorem links_addEnd (a : Assembly) (ref : String) :
    (a.addEnd ref).calls.links = a.calls.links := by
  unfold addEnd
  split
  · rfl
  · exact Digraph.links_addVertex _ _

theorem mem_keys_addEnd {ref ref' : String} :
    ref' ∈ (a.addEnd ref).records.keys ↔ ref' ∈ a.records.keys ∨ ref' = ref := by
  rw [records_addEnd]
  exact InsertionMap.mem_keys_alter

/-- A link between symbols with records adds no vertex. -/
theorem InStep.addLink (h : a.InStep) {e : Edge} (hsource : e.source ∈ a.records.keys)
    (htarget : e.target ∈ a.records.keys) : (a.addLink e).InStep := by
  change ((a.calls.addVertex e.source).addVertex e.target).vertices = a.records.keys
  rw [← h] at hsource htarget
  rw [Digraph.vertices_addVertex, Digraph.vertices_addVertex, if_pos hsource, if_pos htarget, h]

theorem InStep.addCall (h : a.InStep) (e : Edge) : (a.addCall e).InStep := by
  refine ((h.addEnd e.source).addEnd e.target).addLink ?_ ?_
  · exact mem_keys_addEnd.mpr (.inl (mem_keys_addEnd.mpr (.inr rfl)))
  · exact mem_keys_addEnd.mpr (.inr rfl)

/-- A call claims records for its ends. -/
theorem records_addCall (a : Assembly) (e : Edge) :
    (a.addCall e).records =
      [e.source, e.target].foldl (fun m ref => m.claim ref (placeholder ref)) a.records := by
  change ((a.addEnd e.source).addEnd e.target).records = _
  rw [records_addEnd, records_addEnd]
  rfl

/-- A call is merged with the earlier ones on its own link. -/
theorem links_addCall (a : Assembly) (e : Edge) :
    (a.addCall e).calls.links =
      a.calls.links.alter e.ends fun old => some (mergeCalls e old.join) := by
  have hlinks : ((a.addEnd e.source).addEnd e.target).calls.links = a.calls.links := by
    rw [links_addEnd, links_addEnd]
  unfold addCall addLink
  rw [Digraph.links_connect, hlinks]
  exact InsertionMap.alter_congr rfl

/-! ## What all steps do -/

theorem InStep.foldl_addNode (h : a.InStep) (nodes : List Node) :
    (nodes.foldl Assembly.addNode a).InStep := by
  induction nodes generalizing a with
  | nil => exact h
  | cons n nodes ih => exact ih (h.addNode n)

theorem InStep.foldl_addCall (h : a.InStep) (edges : List Edge) :
    (edges.foldl Assembly.addCall a).InStep := by
  induction edges generalizing a with
  | nil => exact h
  | cons e edges ih => exact ih (h.addCall e)

theorem inStep_ofRecords (nodes : List Node) (edges : List Edge) :
    (ofRecords nodes edges).InStep := by
  have hstart : InStep ⟨∅, ∅⟩ := rfl
  exact (hstart.foldl_addNode nodes).foldl_addCall edges

theorem records_ofRecords (nodes : List Node) (edges : List Edge) :
    (ofRecords nodes edges).records = collectNodes nodes edges := by
  have hnodes : (nodes.foldl addNode ⟨∅, ∅⟩).records =
      .ofList (nodes.map fun n => (n.id, n)) := by
    rw [InsertionMap.ofList, List.foldl_map]
    exact (List.foldl_hom records fun _ _ => rfl).symm
  rw [collectNodes, endpoints, List.foldl_flatMap, ← hnodes]
  exact (List.foldl_hom records fun a e => (records_addCall a e).symm).symm

theorem links_foldl_addNode (nodes : List Node) (a : Assembly) :
    (nodes.foldl addNode a).calls.links = a.calls.links := by
  induction nodes generalizing a with
  | nil => rfl
  | cons n nodes ih => exact (ih (a.addNode n)).trans (Digraph.links_addVertex _ _)

theorem links_ofRecords (nodes : List Node) (edges : List Edge)
    (records : InsertionMap String Node) :
    (ofRecords nodes edges).calls.links = (collectCalls records edges).links := by
  have hcalls : (ofRecords nodes edges).calls.links =
      edges.foldl (fun links e => links.alter e.ends fun old => some (mergeCalls e old.join))
        (nodes.foldl addNode ⟨∅, ∅⟩).calls.links :=
    (List.foldl_hom (fun a : Assembly => a.calls.links) fun a e =>
      (links_addCall a e).symm).symm
  rw [hcalls, links_foldl_addNode, collectCalls_eq_foldl, links_foldl_takeIn]
  rfl

theorem calls_ofRecords (nodes : List Node) (edges : List Edge) :
    (ofRecords nodes edges).calls = collectCalls (collectNodes nodes edges) edges := by
  refine Digraph.ext_parts ?_ (links_ofRecords nodes edges _)
  rw [inStep_ofRecords nodes edges, records_ofRecords, keys_collectNodes, vertices_collectCalls]

end Assembly

/-- Flags and marks are derived from what the steps of an assembly come to. -/
theorem build_eq_ofRecords (nodes : List Node) (edges : List Edge) :
    let a := Assembly.ofRecords nodes edges
    build nodes edges =
      { nodes := a.records.mapValues (deriveFlags a.calls), calls := markRecursive a.calls } := by
  intro a
  rw [build, ← Assembly.calls_ofRecords, ← Assembly.records_ofRecords]

end ApiDrift.CallGraph
