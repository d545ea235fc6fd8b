import ApiDrift.CallGraph.Basic
import ApiDrift.CallGraph.Components
import ApiDrift.Journal.Event

set_option autoImplicit false

/-!
# Assembling call graphs

A call graph is assembled from extracted records.  Ends of calls without a record
get a placeholder, repeated calls are merged into one, and three facts are
derived from the links: which calls are part of a cycle, which symbols nobody
else calls, and which symbols call nothing.
-/

namespace ApiDrift.CallGraph

/-! ## Nodes -/

/-- The record of a symbol of which only the reference is known. -/
def placeholder (ref : String) : Node :=
  match Reference.split? ref with
  | some (module, symbol) => { id := ref, symbol := symbol, module := module }
  | none => { id := ref, symbol := Reference.lastSegment ref }

/-- The ends of calls in order, the source of each call first. -/
def endpoints (edges : List Edge) : List String := edges.flatMap fun e => [e.source, e.target]

/-- The given records by id, the last one of a repeated id, and behind them
placeholders for the other ends of calls. -/
def collectNodes (nodes : List Node) (edges : List Edge) : InsertionMap String Node :=
  (endpoints edges).foldl (fun m ref => m.claim ref (placeholder ref))
    (.ofList (nodes.map fun n => (n.id, n)))

/-! ## Calls -/

/-- The merge of a call with the earlier calls between the same symbols: the
later record with the counts added up. -/
def mergeCalls (e : Edge) : Option Edge → Edge
  | some earlier => { e with callCount := earlier.callCount + e.callCount }
  | none => e

/-- The links between symbols, with the merged calls as their records. -/
def collectCalls (nodes : InsertionMap String Node) (edges : List Edge) : Digraph Edge :=
  edges.foldl (fun g e => g.connect e.source e.target fun old => some (mergeCalls e old))
    (.ofVertices nodes.keys nodes.keys_nodup)

/-- Marks the calls that are part of a cycle as recursive, and no others. -/
def markRecursive (calls : Digraph Edge) : Digraph Edge :=
  let table := calls.cycleTable
  calls.mapRecords fun source target e =>
    { e with isRecursive := (table.getD source []).contains target }

/-! ## Flags of nodes -/

/-- The record of a symbol with its flags derived: an entry point is one that was
given as such or that nobody else calls, a leaf is one that calls nothing. -/
def deriveFlags (calls : Digraph Edge) (ref : String) (n : Node) : Node :=
  { n with
    isEntryPoint := n.isEntryPoint || (calls.callers ref).all (· == ref)
    isLeaf := (calls.callees ref).isEmpty }

/-- The call graph of extracted records. -/
def build (nodes : List Node) (edges : List Edge) : CallGraph :=
  let records := collectNodes nodes edges
  let calls := collectCalls records edges
  { nodes := records.mapValues (deriveFlags calls)
    calls := markRecursive calls }

/-- What assembling a call graph leaves in the trace. -/
def buildTrace (nodes : List Node) (edges : List Edge) : List Event :=
  let g := build nodes edges
  [.graphBuilt g.size g.calls.links.size]

end ApiDrift.CallGraph
