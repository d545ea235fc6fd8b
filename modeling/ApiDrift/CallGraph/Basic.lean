import ApiDrift.CallGraph.Digraph
import ApiDrift.Reference

set_option autoImplicit false

/-!
# Call graphs

A call graph links callers to callees and keeps a record for each callable symbol
that is known.  A symbol may have a record without being linked, or be linked
without having a record.
-/

namespace ApiDrift

/-- A callable symbol. -/
structure Node where
  id : String
  symbol : String := ""
  module : String := ""
  isEntryPoint : Bool := false
  isLeaf : Bool := false
  deriving DecidableEq, Repr, Inhabited

/-- The calls from one symbol to another. -/
structure Edge where
  source : String
  target : String
  callCount : Int := 1
  isRecursive : Bool := false
  deriving DecidableEq, Repr, Inhabited

/-- Records of callable symbols and the calls between them. -/
structure CallGraph where
  nodes : InsertionMap String Node
  calls : Digraph Edge
  deriving Repr

namespace CallGraph

instance : EmptyCollection CallGraph := ⟨⟨∅, ∅⟩⟩

instance : Inhabited CallGraph := ⟨∅⟩

/-- A call graph put together by hand: records under any keys, vertices, and
links.  A repeated link keeps its record unless the later one has one. -/
def ofParts (nodes : InsertionMap String Node) (vertices : List String)
    (links : List ((String × String) × Option Edge)) : CallGraph where
  nodes := nodes
  calls := links.foldl (fun g link => g.connect link.1.1 link.1.2 fun old => link.2.or old)
    (vertices.foldl Digraph.addVertex ∅)

/-! ## Looking around -/

/-- Whether a reference is known, with or without a record. -/
def contains (g : CallGraph) (ref : String) : Bool :=
  g.nodes.contains ref || g.calls.vertices.contains ref

/-- The number of linked symbols. -/
def size (g : CallGraph) : Nat := g.calls.vertices.length

/-- The symbols that call a symbol. -/
def callers (g : CallGraph) (ref : String) : List String := g.calls.callers ref

/-- The symbols that a symbol calls. -/
def callees (g : CallGraph) (ref : String) : List String := g.calls.callees ref

/-- How many callers and callees a symbol has together. -/
def callCount (g : CallGraph) (ref : String) : Nat :=
  (g.callers ref).length + (g.callees ref).length

/-- All calls, by caller; a link without a record is a single call. -/
def edges (g : CallGraph) : List Edge :=
  g.calls.linksBySource.map fun (link, record) => record.getD ⟨link.1, link.2, 1, false⟩

/-- The record of a symbol. -/
def node? (g : CallGraph) (ref : String) : Option Node := g.nodes.get? ref

/-! ## Resolving -/

/-- The id of the first record of the given module and symbol name. -/
def recordOf? (g : CallGraph) (module symbol : String) : Option String :=
  (g.nodes.values.find? fun n => n.module = module ∧ n.symbol = symbol).map Node.id

/-- The node that a module and a symbol name stand for: their reference if it is
known, or else the first record of theirs. -/
def findNamed? (g : CallGraph) (module symbol : String) : Option String :=
  if module = "" ∨ symbol = "" then none
  else if g.contains (Reference.ofName module symbol) then some (Reference.ofName module symbol)
  else g.recordOf? module symbol

/-- The node that a symbol stands for, by its reference if that is known, or else
by its module and name. -/
def find? (g : CallGraph) (ref : Option String) (module symbol : String) : Option String :=
  match ref.filter fun ref => ref ≠ "" && g.contains ref with
  | some ref => some ref
  | none => g.findNamed? module symbol

/-- The module of a symbol, from its record or else from its reference. -/
def moduleOf? (g : CallGraph) (ref : String) : Option String :=
  match ((g.node? ref).map Node.module).filter (· ≠ "") with
  | some module => some module
  | none => (Reference.split? ref).map Prod.fst

end CallGraph

end ApiDrift
