import ApiDrift.CallGraph.Basic
import ApiDrift.CallGraph.Search
import ApiDrift.Impact.Level
import ApiDrift.Release.Diff

set_option autoImplicit false

/-!
# Impact reports

A report says who calls a symbol, directly and through others, and how much that
matters.  A symbol that the call graph does not know has no callers.  All changes
of a diff are reported by their symbol reference; where several changes share
one, the first decides which node it stands for.
-/

namespace ApiDrift.Impact

/-- The callers of one changed symbol and what they amount to. -/
structure Report where
  symbolRef : String
  directCallers : List String := []
  transitiveCallers : List String := []
  blastRadius : Int
  level : Level
  affectedModules : List String := []
  affectedExports : List String := []
  deriving DecidableEq, Repr, Inhabited

/-! ## Exports by reference -/

/-- The references under which an export is known, each with its name. -/
def exportClaims (modulePath : String) (e : Export) : List (String × String) :=
  (Reference.ofName modulePath e.name, e.name) ::
    (e.symbol.map fun symbol => (symbol.id, e.name)).toList

/-- The names of the exports of snapshots by reference.  The first export to
claim a reference has it. -/
def exportIndex (snapshots : List Snapshot) : InsertionMap String String :=
  .ofClaims (snapshots.flatMap fun s =>
    s.modules.flatMap fun m => m.exports.flatMap fun e => exportClaims m.path e)

/-- The export that a node of the call graph is, by its id or by the module and
the symbol of its record. -/
def exportName? (exported : InsertionMap String String) (g : CallGraph) (ref : String) :
    Option String :=
  match exported.get? ref with
  | some name => some name
  | none =>
    ((g.node? ref).filter fun n => n.module ≠ "" && n.symbol ≠ "").bind fun n =>
      exported.get? (Reference.ofName n.module n.symbol)

/-! ## Callers -/

/-- The callers of a node other than itself. -/
def directCallers (g : CallGraph) (node : String) : List String :=
  (g.callers node).filter (· ≠ node)

/-- The callers of callers, nearest first, without the node and its direct
callers. -/
def transitiveCallers (limit : Option Nat) (g : CallGraph) (node : String) : List String :=
  (g.calls.callerLayers limit node (directCallers g node)).flatten

/-- All callers of a node, nearest first. -/
def allCallers (limit : Option Nat) (g : CallGraph) (node : String) : List String :=
  directCallers g node ++ transitiveCallers limit g node

/-! ## Reports -/

namespace Report

/-- The report of a symbol that the call graph does not know. -/
def isolated (config : Config) (symbolRef : String) (isEntryPoint : Bool) : Report where
  symbolRef := symbolRef
  blastRadius := 0
  level := config.level 0 0 isEntryPoint

/-- The report of a symbol that stands for a node of the call graph. -/
def ofNode (config : Config) (g : CallGraph) (exported : InsertionMap String String)
    (symbolRef node : String) (isEntryPoint : Bool) : Report :=
  let callers := allCallers config.maxDepth g node
  let affectedExports := (callers.filterMap (exportName? exported g)).eraseDups
  { symbolRef := symbolRef
    directCallers := Impact.directCallers g node
    transitiveCallers := Impact.transitiveCallers config.maxDepth g node
    blastRadius := callers.length
    level := config.level callers.length affectedExports.length isEntryPoint
    affectedModules := (callers.filterMap g.moduleOf?).eraseDups
    affectedExports := affectedExports }

/-- The report of a symbol that may stand for a node of the call graph.  It is an
entry point if its reference or its node is listed as one. -/
def ofNode? (config : Config) (g : CallGraph) (entryPoints : List String)
    (exported : InsertionMap String String) (symbolRef : String) : Option String → Report
  | none => isolated config symbolRef (entryPoints.contains symbolRef)
  | some node =>
    ofNode config g exported symbolRef node
      (entryPoints.contains symbolRef || entryPoints.contains node)

end Report

/-- The report of a symbol by its reference alone. -/
def reportOn (config : Config) (g : CallGraph) (entryPoints : List String)
    (exported : InsertionMap String String) (symbolRef : String) : Report :=
  .ofNode? config g entryPoints exported symbolRef (g.find? (some symbolRef) "" "")

/-! ## All changes of a diff -/

/-- The first change of each symbol reference, by reference. -/
def leadChanges (changes : List Change) : InsertionMap String Change :=
  .ofClaims (changes.map fun c => (c.symbolRef, c))

/-- The node that the symbol of a change stands for. -/
def nodeOf? (g : CallGraph) (c : Change) : Option String :=
  g.find? (some c.symbolRef) c.modulePath c.symbolName

/-- The reports of all changes of a diff, by symbol reference. -/
def reportAll (config : Config) (g : CallGraph) (entryPoints : List String) (d : Diff) :
    InsertionMap String Report :=
  let exported := exportIndex [d.newer, d.older]
  (leadChanges d.changes).mapValues fun ref c =>
    .ofNode? config g entryPoints exported ref (nodeOf? g c)

/-- Reporting on a diff leaves a trace of the symbols that the call graph does not
know. -/
def reportTrace (g : CallGraph) (d : Diff) : List Event :=
  ((leadChanges d.changes).entries.filter fun (_, c) => (nodeOf? g c).isNone).map fun (ref, _) =>
    .notInGraph ref

end ApiDrift.Impact
