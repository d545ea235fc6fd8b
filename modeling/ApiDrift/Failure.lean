set_option autoImplicit false

/-!
# Failures

Input that is not accepted is reported with the kind of the failure and a text.
Either a value is not one of those that are allowed, or values are of types that do
not go together.
-/

namespace ApiDrift

/-- The kinds of failures. -/
inductive FailureKind where
  | value
  | type
  deriving DecidableEq, Repr, Inhabited

/-- The word for a kind of failure. -/
def FailureKind.word : FailureKind → String
  | value => "ValueError"
  | type => "TypeError"

/-- A failure as it is reported. -/
structure Failure where
  kind : FailureKind
  message : String
  deriving DecidableEq, Repr, Inhabited

end ApiDrift
