import ApiDrift.Snapshot.TypeExpr

set_option autoImplicit false

/-!
# Signatures

A symbol is recorded with its signature, which callers depend on, and with its
documentation, which they do not.
-/

namespace ApiDrift

/-- A positional parameter of a callable symbol. -/
structure Parameter where
  name : String
  type : Option TypeExpr := none
  isOptional : Bool := false
  description : Option String := none
  defaultValue : Option String := none
  deriving Repr, Inhabited

/-- Whether a call has to supply the parameter.  A default value counts as one
whatever its text is. -/
def Parameter.isRequired (p : Parameter) : Bool := !p.isOptional && p.defaultValue.isNone

/-- A notice that a symbol is on its way out. -/
structure Deprecation where
  message : Option String := none
  since : Option String := none
  replacement : Option String := none
  deriving DecidableEq, Repr, Inhabited

/-- The full record of an exported symbol. -/
structure Symbol where
  id : String
  name : String
  kind : String := "function"
  signature : String := ""
  description : String := ""
  summary : Option String := none
  examples : List String := []
  parameters : List Parameter := []
  returnType : Option TypeExpr := none
  deprecation : Option Deprecation := none
  deriving Repr, Inhabited

/-- Whether a symbol carries a deprecation notice, be it an empty one. -/
def Symbol.isDeprecated (s : Symbol) : Bool := s.deprecation.isSome

/-- Whether a symbol has a description that is more than blank space. -/
def Symbol.isDocumented (s : Symbol) : Bool := !(Text.trim s.description.toList).isEmpty

end ApiDrift
