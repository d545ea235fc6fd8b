import ApiDrift.Reference
import ApiDrift.Release.Bump
import ApiDrift.Release.Matching
import ApiDrift.Signature.Compare

set_option autoImplicit false

/-!
# Changes

A match of an export name becomes a change when callers can notice a difference.
An addition or a removal always does; an export on both sides does when its
signatures differ, and is passed over where one of them is unknown.
-/

namespace ApiDrift

/-- The kinds of changes. -/
inductive ChangeKind where
  | added
  | removed
  | modified
  | deprecated
  deriving DecidableEq, Repr, Inhabited

namespace ChangeKind

/-- The word for a kind of change. -/
def word : ChangeKind → String
  | added => "added"
  | removed => "removed"
  | modified => "modified"
  | deprecated => "deprecated"

/-- The kinds of changes and their words. -/
def vocabulary : Vocabulary ChangeKind :=
  ⟨"ChangeKind", [added, removed, modified, deprecated], word⟩

end ChangeKind

/-- One entry of a diff. -/
structure Change where
  kind : ChangeKind
  modulePath : String
  symbolName : String
  symbolRef : String
  breaking : Bool
  details : List Detail := []
  before : Option Symbol := none
  after : Option Symbol := none
  deriving Repr

/-- The bump that a change asks for on its own. -/
def Change.bump (c : Change) : Bump := if c.breaking then .major else .minor

/-- The reference of a symbol: the id of the first export that is resolved, or
else its module and name. -/
def symbolRef (modulePath name : String) (exports : List (Option Export)) : String :=
  ((exports.findSome? fun e => e.bind Export.symbol).map Symbol.id).getD
    (Reference.ofName modulePath name)

namespace Match

/-- The change of a name that only the newer module exports. -/
def addition (m : Match) : Change where
  kind := .added
  modulePath := m.modulePath
  symbolName := m.name
  symbolRef := symbolRef m.modulePath m.name [m.after]
  breaking := Detail.exportAdded.breaking
  details := [.exportAdded]
  after := m.after.bind Export.symbol

/-- The change of a name that only the older module exports. -/
def removal (m : Match) : Change where
  kind := .removed
  modulePath := m.modulePath
  symbolName := m.name
  symbolRef := symbolRef m.modulePath m.name [m.before]
  breaking := Detail.exportRemoved.breaking
  details := [.exportRemoved]
  before := m.before.bind Export.symbol

/-- The change that the differences between two versions of a symbol make up. -/
def modification (m : Match) (before after : Symbol) (details : List Detail) : Change where
  kind := if .deprecated ∈ details then .deprecated else .modified
  modulePath := m.modulePath
  symbolName := m.name
  symbolRef := symbolRef m.modulePath m.name [m.after, m.before]
  breaking := details.any Detail.breaking
  details := details
  before := some before
  after := some after

/-- The two versions of a matched symbol, if both are known. -/
def versions? (m : Match) : Option (Symbol × Symbol) :=
  match m.before.bind Export.symbol, m.after.bind Export.symbol with
  | some before, some after => some (before, after)
  | _, _ => none

/-- The change of a match, if callers can notice any. -/
def change? (comparator : TypeComparator) (m : Match) : Option Change :=
  match m.status with
  | .added => some m.addition
  | .removed => some m.removal
  | .matched =>
    m.versions?.bind fun (before, after) =>
      match Signature.compareSymbols comparator before after with
      | [] => none
      | details => some (m.modification before after details)

/-- What looking for a change leaves in the trace. -/
def trace (comparator : TypeComparator) (m : Match) : List Event :=
  match m.status with
  | .added | .removed => []
  | .matched =>
    match m.versions? with
    | some (before, after) => Signature.trace comparator before after
    | none => [.unresolvable m.modulePath m.name]

end Match

end ApiDrift
