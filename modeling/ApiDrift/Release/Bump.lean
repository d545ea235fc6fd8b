set_option autoImplicit false

/-!
# Version bumps

A release recommends how far the version number moves.  Bumps are ordered, and
changes together ask for the largest bump that one of them asks for.
-/

namespace ApiDrift

/-- How far a release moves the version number, least first. -/
inductive Bump where
  | none
  | minor
  | major
  deriving DecidableEq, Repr, Inhabited

namespace Bump

/-- The word for a bump. -/
def word : Bump → String
  | none => "none"
  | minor => "minor"
  | major => "major"

/-- The place of a bump in the order. -/
def rank : Bump → Nat
  | none => 0
  | minor => 1
  | major => 2

/-- Bumps are compared by their place in the order. -/
instance : LE Bump := ⟨fun a b => a.rank ≤ b.rank⟩

instance (a b : Bump) : Decidable (a ≤ b) := inferInstanceAs (Decidable (a.rank ≤ b.rank))

/-- The larger of two bumps. -/
instance : Max Bump := ⟨fun a b => if a ≤ b then b else a⟩

end Bump

end ApiDrift
