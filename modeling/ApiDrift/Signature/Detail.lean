import ApiDrift.TypeRelation.Basic

set_option autoImplicit false

/-!
# Details of a change

A detail is one observed difference between two versions of an export.  Each
kind of difference carries what it is about and nothing else; whether it breaks
callers follows from the kind, except for an added parameter, where it depends on
the parameters around it.
-/

namespace ApiDrift

/-- One observed difference.  Positions of added, renamed and retyped parameters
are those of the newer list, positions of removed ones those of the older. -/
inductive Detail where
  | exportAdded
  | exportRemoved
  | parameterAdded (name : String) (position : Nat) (type : Option String) (breaking : Bool)
  | parameterRemoved (name : String) (position : Nat) (type : Option String)
  | parameterReordered (name : String) (position : Nat) (previous : String)
  | parameterRenamed (position : Nat) (previous name : String)
  | parameterRetyped (name : String) (position : Nat) (shift : TypeShift)
      (previous type : Option String)
  | parameterMadeOptional (name : String) (position : Nat)
  | parameterMadeRequired (name : String) (position : Nat)
  | returnRetyped (shift : TypeShift) (previous type : Option String)
  | deprecated
  deriving DecidableEq, Repr, Inhabited

/-- The reason codes of details. -/
inductive DetailKind where
  | exportAdded
  | exportRemoved
  | parameterAdded
  | parameterRemoved
  | parameterReordered
  | parameterRenamed
  | parameterTypeWidened
  | parameterTypeNarrowed
  | parameterTypeChanged
  | parameterMadeOptional
  | parameterMadeRequired
  | returnTypeWidened
  | returnTypeNarrowed
  | returnTypeChanged
  | deprecated
  deriving DecidableEq, Repr, Inhabited

/-! ## Reason codes -/

/-- The word for a reason code. -/
def DetailKind.word : DetailKind → String
  | exportAdded => "export_added"
  | exportRemoved => "export_removed"
  | parameterAdded => "parameter_added"
  | parameterRemoved => "parameter_removed"
  | parameterReordered => "parameter_reordered"
  | parameterRenamed => "parameter_renamed"
  | parameterTypeWidened => "parameter_type_widened"
  | parameterTypeNarrowed => "parameter_type_narrowed"
  | parameterTypeChanged => "parameter_type_changed"
  | parameterMadeOptional => "parameter_made_optional"
  | parameterMadeRequired => "parameter_made_required"
  | returnTypeWidened => "return_type_widened"
  | returnTypeNarrowed => "return_type_narrowed"
  | returnTypeChanged => "return_type_changed"
  | deprecated => "deprecated"

namespace TypeShift

/-- The reason code of a shift in a parameter type. -/
def parameterKind : TypeShift → DetailKind
  | widened => .parameterTypeWidened
  | narrowed => .parameterTypeNarrowed
  | unrelated => .parameterTypeChanged

/-- The reason code of a shift in a return type. -/
def returnKind : TypeShift → DetailKind
  | widened => .returnTypeWidened
  | narrowed => .returnTypeNarrowed
  | unrelated => .returnTypeChanged

end TypeShift

namespace Detail

/-- The reason code of a detail. -/
def kind : Detail → DetailKind
  | exportAdded => .exportAdded
  | exportRemoved => .exportRemoved
  | parameterAdded .. => .parameterAdded
  | parameterRemoved .. => .parameterRemoved
  | parameterReordered .. => .parameterReordered
  | parameterRenamed .. => .parameterRenamed
  | parameterRetyped _ _ shift _ _ => shift.parameterKind
  | parameterMadeOptional .. => .parameterMadeOptional
  | parameterMadeRequired .. => .parameterMadeRequired
  | returnRetyped shift _ _ => shift.returnKind
  | deprecated => .deprecated

/-! ## Consequences for callers -/

/-- Whether a detail breaks callers.  A retyped slot does unless the shift is
safe at its position, and calls are positional, so a reordering always does. -/
def breaking : Detail → Bool
  | exportRemoved | parameterRemoved .. | parameterReordered .. | parameterMadeRequired .. => true
  | parameterAdded _ _ _ breaking => breaking
  | parameterRetyped _ _ shift _ _ => !shift.relation.isSafe .input
  | returnRetyped shift _ _ => !shift.relation.isSafe .output
  | exportAdded | parameterRenamed .. | parameterMadeOptional .. | deprecated => false

/-! ## What a detail is about -/

/-- The parameter that a detail is about, by its newest name. -/
def parameter? : Detail → Option String
  | parameterAdded name .. | parameterRemoved name .. | parameterReordered name ..
  | parameterRenamed _ _ name | parameterRetyped name .. | parameterMadeOptional name _
  | parameterMadeRequired name _ => some name
  | exportAdded | exportRemoved | returnRetyped .. | deprecated => none

/-- The position that a detail is about. -/
def position? : Detail → Option Nat
  | parameterAdded _ position .. | parameterRemoved _ position _ | parameterReordered _ position _
  | parameterRenamed position .. | parameterRetyped _ position .. | parameterMadeOptional _ position
  | parameterMadeRequired _ position => some position
  | exportAdded | exportRemoved | returnRetyped .. | deprecated => none

/-- What stood in the older version: a type or the name of a parameter. -/
def before? : Detail → Option String
  | parameterRemoved _ _ type => type
  | parameterReordered _ _ previous | parameterRenamed _ previous _ => some previous
  | parameterRetyped _ _ _ previous _ | returnRetyped _ previous _ => previous
  | exportAdded | exportRemoved | parameterAdded .. | parameterMadeOptional ..
  | parameterMadeRequired .. | deprecated => none

/-- What stands in the newer version: a type or the name of a parameter. -/
def after? : Detail → Option String
  | parameterAdded _ _ type _ => type
  | parameterReordered name .. | parameterRenamed _ _ name => some name
  | parameterRetyped _ _ _ _ type | returnRetyped _ _ type => type
  | exportAdded | exportRemoved | parameterRemoved .. | parameterMadeOptional ..
  | parameterMadeRequired .. | deprecated => none

/-- The relation of the newer type to the older one, where a type shifted. -/
def relation? : Detail → Option TypeRelation
  | parameterRetyped _ _ shift _ _ | returnRetyped shift _ _ => some shift.relation
  | exportAdded | exportRemoved | parameterAdded .. | parameterRemoved .. | parameterReordered ..
  | parameterRenamed .. | parameterMadeOptional .. | parameterMadeRequired .. | deprecated => none

end Detail

end ApiDrift
