import ApiDrift.Journal.Record
import ApiDrift.Release.Bump
import ApiDrift.Text.Quoted

set_option autoImplicit false

/-!
# Traced events

The analyses leave a trace of what a reader of their result may wonder about:
what was passed over, what could not be related, and how large the result is.
Each event belongs to the channel of the analysis it comes from.
-/

namespace ApiDrift

/-- One traced observation. -/
inductive Event where
  /-- A module of the older snapshot is gone. -/
  | moduleRemoved (path : String)
  /-- A module of the newer snapshot is new. -/
  | moduleAdded (path : String)
  /-- An export has no signature on one side, so it is not compared. -/
  | unresolvable (path name : String)
  /-- Two type texts are neither a widening nor a narrowing of each other. -/
  | unrelatedTypes (before after : String)
  /-- A diff is finished. -/
  | diffed (older newer : String) (changes breaking : Nat) (bump : Bump)
  /-- A call graph is assembled. -/
  | graphBuilt (nodes edges : Nat)
  /-- A changed symbol is missing from the call graph. -/
  | notInGraph (ref : String)
  deriving DecidableEq, Repr, Inhabited

namespace Event

/-- The channel that an event is traced on. -/
def channel : Event → String
  | moduleRemoved _ | moduleAdded _ => "apidelta.analyzers.symbol_matcher"
  | unresolvable _ _ => "apidelta.analyzers.change_classifier"
  | unrelatedTypes _ _ => "apidelta.analyzers.type_relation"
  | diffed _ _ _ _ _ => "apidelta.analyzers.api_differ"
  | graphBuilt _ _ => "apidelta.analyzers.call_graph_analyzer"
  | notInGraph _ => "apidelta.analyzers.impact_analyzer"

/-- The text of an event. -/
def message : Event → String
  | moduleRemoved path => s!"Module {path} removed"
  | moduleAdded path => s!"Module {path} added"
  | unresolvable path name => s!"Skipping {path}#{name}: signature not resolvable"
  | unrelatedTypes before after =>
    "Unrelated type change " ++ Text.quote before ++ " -> " ++ Text.quote after
  | diffed older newer changes breaking bump =>
    s!"Diff {older} -> {newer}: {changes} changes ({breaking} breaking), recommended bump "
      ++ bump.word
  | graphBuilt nodes edges => s!"Built call graph with {nodes} nodes and {edges} edges"
  | notInGraph ref => s!"{ref} not in call graph, treating as isolated"

/-- The record of an event.  Events are for those who look closely, so they have
the least severity. -/
def record (e : Event) : Journal.Record := ⟨.debug, e.channel, e.message⟩

end Event

end ApiDrift
