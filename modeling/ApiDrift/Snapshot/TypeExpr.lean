import ApiDrift.TypeText.Alternatives

set_option autoImplicit false

/-!
# Type expressions

A type is kept as it is written, together with the form an extractor resolved it
to and, for a union, its member types where the extractor knows them.
-/

namespace ApiDrift

/-- A type as written, with what an extractor knows of it. -/
structure TypeExpr where
  raw : String
  resolved : Option String := none
  kind : Option String := none
  members : List TypeExpr := []
  deriving Repr, Inhabited

namespace TypeExpr

/-- The resolved text if there is any, else the text as written. -/
def text (t : TypeExpr) : String := (t.resolved.filter (· ≠ "")).getD t.raw

/-- The text of a type with single spaces between its words. -/
def normalized (t : TypeExpr) : String := String.ofList (Text.collapse t.text.toList)

/-- The member types of a union that an extractor took apart. -/
def knownMembers (t : TypeExpr) : List TypeExpr := if t.kind = some "union" then t.members else []

/-- The alternatives of a type: those of its known members, or, where none are
known, those read from its text. -/
def alternatives (t : TypeExpr) : List String :=
  match t.knownMembers with
  | [] => TypeText.unionMembers t.normalized
  | members => members.flatMap fun member => TypeText.unionMembers member.normalized

end TypeExpr

end ApiDrift
