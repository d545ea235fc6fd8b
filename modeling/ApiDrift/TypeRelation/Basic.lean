import ApiDrift.Vocabulary

set_option autoImplicit false

/-!
# Type relations and their safety

When the type of a slot changes, the new type stands in one of four relations
to the old one.  Which of them a caller can live with depends on where the slot
is: what a caller passes in may be accepted more widely, what a caller gets back
may be promised more narrowly.
-/

namespace ApiDrift

/-- How a new type relates to the old type of the same slot. -/
inductive TypeRelation where
  | same
  | widened
  | narrowed
  | unrelated
  deriving DecidableEq, Repr, Inhabited

/-- A type relation other than sameness. -/
inductive TypeShift where
  | widened
  | narrowed
  | unrelated
  deriving DecidableEq, Repr, Inhabited

/-- Where a slot stands in a signature: callers pass it in or get it back. -/
inductive Position where
  | input
  | output
  deriving DecidableEq, Repr, Inhabited

/-! ## Relations -/

/-- The relation that a shift is. -/
def TypeShift.relation : TypeShift → TypeRelation
  | .widened => .widened
  | .narrowed => .narrowed
  | .unrelated => .unrelated

namespace TypeRelation

/-- The word for a relation. -/
def word : TypeRelation → String
  | same => "same"
  | widened => "widened"
  | narrowed => "narrowed"
  | unrelated => "unrelated"

/-- The four relations and their words. -/
def vocabulary : Vocabulary TypeRelation :=
  ⟨"TypeRelation", [same, widened, narrowed, unrelated], word⟩

/-- The shift that a relation is, if it is one. -/
def shift? : TypeRelation → Option TypeShift
  | same => none
  | widened => some .widened
  | narrowed => some .narrowed
  | unrelated => some .unrelated

/-- The relation seen from the new type. -/
def converse : TypeRelation → TypeRelation
  | same => same
  | widened => narrowed
  | narrowed => widened
  | unrelated => unrelated

/-- The relation of a set to another one, from whether each covers the other. -/
def ofCoverage (oldInNew newInOld : Bool) : TypeRelation :=
  match oldInNew, newInOld with
  | true, true => same
  | true, false => widened
  | false, true => narrowed
  | false, false => unrelated

theorem converse_ofCoverage (a b : Bool) : (ofCoverage a b).converse = ofCoverage b a := by
  cases a <;> cases b <;> rfl

/-! ## Safety -/

/-- Whether callers can live with a relation at a position.  In input position
only a narrowing is unsafe: a parameter that now takes some other type is
assumed to take what callers pass.  In output position nothing but a narrowing
is safe. -/
def isSafe : TypeRelation → Position → Bool
  | same, _ => true
  | widened, .input => true
  | unrelated, .input => true
  | narrowed, .output => true
  | _, _ => false

end TypeRelation

/-! ## Positions by name -/

/-- A text that names no position. -/
structure UnknownPosition where
  text : String
  deriving DecidableEq, Repr, Inhabited

/-- How an unknown position is reported. -/
def UnknownPosition.failure (e : UnknownPosition) : Failure :=
  ⟨.value, "Unknown type position: " ++ Text.quote e.text⟩

/-- The position that a text names. -/
def Position.ofText? : String → Option Position
  | "input" => some .input
  | "output" => some .output
  | _ => none

/-- Whether callers can live with a relation at a named position.  An unchanged
type is safe wherever it stands, so its position is not looked at. -/
def TypeRelation.isSafeAt (r : TypeRelation) (position : String) : Except UnknownPosition Bool :=
  if r = .same then .ok true
  else
    match Position.ofText? position with
    | some p => .ok (r.isSafe p)
    | none => .error ⟨position⟩

end ApiDrift
