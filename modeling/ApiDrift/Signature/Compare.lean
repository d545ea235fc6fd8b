import ApiDrift.Signature.Detail
import ApiDrift.Signature.Pairing
import ApiDrift.TypeRelation.Comparator

set_option autoImplicit false

/-!
# Comparing two signatures

The differences between two versions of a symbol: parameter by parameter in
newer order, then the removed parameters in older order, then the return type,
and last a new deprecation.  Documentation is not looked at.
-/

namespace ApiDrift.Signature

/-- The text of a type as written, if there is a type. -/
def writtenText (type : Option TypeExpr) : Option String := type.map TypeExpr.raw

/-! ## Parameters -/

/-- Whether a call may newly leave out a parameter, or newly has to supply it. -/
def requirednessDetails (old new : Parameter) (position : Nat) : List Detail :=
  match old.isRequired, new.isRequired with
  | true, false => [.parameterMadeOptional new.name position]
  | false, true => [.parameterMadeRequired new.name position]
  | _, _ => []

/-- The shift of a parameter's type, if it shifted. -/
def retypedDetails (comparator : TypeComparator) (old new : Parameter) (position : Nat) :
    List Detail :=
  match (comparator.relate old.type new.type).shift? with
  | some shift =>
    [.parameterRetyped new.name position shift (writtenText old.type) (writtenText new.type)]
  | none => []

/-- The differences between a parameter and the older one it stands for. -/
def parameterDetails (comparator : TypeComparator) (old new : Parameter) (position : Nat) :
    List Detail :=
  retypedDetails comparator old new position ++ requirednessDetails old new position

/-- A kept parameter is reordered if another shared name stood at its rank. -/
def reorderedDetails (name : String) (position : Nat) : Option String → List Detail
  | some previous => if previous = name then [] else [.parameterReordered name position previous]
  | none => []

/-- The differences that one parameter of the newer list makes.  An added
parameter breaks callers if they have to supply it, or if a kept one behind it
moves. -/
def pairingDetails (comparator : TypeComparator) (new : Parameter) (position : Nat) :
    Pairing → List Detail
  | .kept old previous =>
    reorderedDetails new.name position previous ++ parameterDetails comparator old new position
  | .renamed old =>
    .parameterRenamed position old.name new.name :: parameterDetails comparator old new position
  | .added shifts =>
    [.parameterAdded new.name position (writtenText new.type) (new.isRequired || shifts)]

/-- The differences between two parameter lists. -/
def compareParameters (comparator : TypeComparator) (before after : List Parameter) :
    List Detail :=
  ((pairings before after).flatMap fun (new, position, pairing) =>
    pairingDetails comparator new position pairing) ++
  (removals before after).map fun (old, position) =>
    .parameterRemoved old.name position (writtenText old.type)

theorem compareParameters_eq (comparator : TypeComparator) (before after : List Parameter) :
    compareParameters comparator before after =
      ((pairings before after).flatMap fun p => pairingDetails comparator p.1 p.2.1 p.2.2) ++
      (removals before after).map fun p =>
        .parameterRemoved p.1.name p.2 (writtenText p.1.type) :=
  rfl

/-! ## Symbols -/

/-- The shift of a return type, if it shifted. -/
def returnDetails (comparator : TypeComparator) (old new : Option TypeExpr) : List Detail :=
  match (comparator.relate old new).shift? with
  | some shift => [.returnRetyped shift (writtenText old) (writtenText new)]
  | none => []

/-- A deprecation that was not there before. -/
def deprecationDetails (before after : Symbol) : List Detail :=
  if !before.isDeprecated && after.isDeprecated then [.deprecated] else []

theorem eq_of_mem_deprecationDetails {before after : Symbol} {d : Detail}
    (h : d ∈ deprecationDetails before after) : d = .deprecated := by
  unfold deprecationDetails at h
  split at h
  · exact List.mem_singleton.mp h
  · cases h

/-- The differences between two versions of a symbol. -/
def compareSymbols (comparator : TypeComparator) (before after : Symbol) : List Detail :=
  compareParameters comparator before.parameters after.parameters ++
    returnDetails comparator before.returnType after.returnType ++
    deprecationDetails before after

/-! ## Trace -/

/-- The pairs of types that a comparison of two symbols looks at, in order. -/
def comparedTypes (before after : Symbol) : List (Option TypeExpr × Option TypeExpr) :=
  ((pairings before.parameters after.parameters).filterMap fun (new, _, pairing) =>
    pairing.old?.map fun old => (old.type, new.type)) ++
  [(before.returnType, after.returnType)]

/-- The trace of a comparison of two symbols. -/
def trace (comparator : TypeComparator) (before after : Symbol) : List Event :=
  (comparedTypes before after).flatMap fun (old, new) => comparator.trace old new

end ApiDrift.Signature
