import ApiDrift.Signature.Compare
import Mathlib.Data.List.Basic

set_option autoImplicit false

/-!
# Signatures without their documentation

A bare symbol keeps what callers depend on: its reference, its parameters, its return
type, and whether it is deprecated.  Each stage of a comparison reads nothing else, so it
finds in bare symbols what it finds in documented ones.
-/

namespace ApiDrift

/-! ## Bare records -/

/-- A parameter without its documentation.  That there is a default value stays known,
its text does not. -/
def Parameter.bare (p : Parameter) : Parameter where
  name := p.name
  type := p.type
  isOptional := p.isOptional
  description := none
  defaultValue := p.defaultValue.map fun _ => ""

/-- A symbol without its documentation.  That it is deprecated stays known, the notice
does not. -/
def Symbol.bare (s : Symbol) : Symbol where
  id := s.id
  name := ""
  kind := ""
  signature := ""
  description := ""
  summary := none
  examples := []
  parameters := s.parameters.map Parameter.bare
  returnType := s.returnType
  deprecation := s.deprecation.map fun _ => {}

theorem Parameter.isRequired_bare (p : Parameter) : p.bare.isRequired = p.isRequired := by
  rw [isRequired, bare, Option.isNone_map, isRequired]

theorem Symbol.isDeprecated_bare (s : Symbol) : s.bare.isDeprecated = s.isDeprecated := by
  rw [isDeprecated, bare, Option.isSome_map, isDeprecated]

namespace Signature

/-! ## Names -/

theorem map_name_bare (parameters : List Parameter) :
    (parameters.map Parameter.bare).map Parameter.name = parameters.map Parameter.name := by
  rw [List.map_map]
  rfl

theorem hasName_bare (parameters : List Parameter) (name : String) :
    hasName (parameters.map Parameter.bare) name = hasName parameters name := by
  rw [Bool.eq_iff_iff, hasName_iff, hasName_iff, map_name_bare]

theorem lastNamed?_bare (parameters : List Parameter) (name : String) :
    lastNamed? (parameters.map Parameter.bare) name =
      (lastNamed? parameters name).map Parameter.bare := by
  rw [lastNamed?, ← List.map_reverse, List.find?_map]
  rfl

theorem sharedOrder_bare (before after : List Parameter) :
    sharedOrder (before.map Parameter.bare) (after.map Parameter.bare) =
      sharedOrder before after := by
  rw [sharedOrder, map_name_bare]
  exact List.filter_congr fun name _ => hasName_bare after name

/-! ## Pairings -/

/-- A pairing with the documentation of the older parameter left out. -/
def Pairing.bare : Pairing → Pairing
  | kept old previous => kept old.bare previous
  | renamed old => renamed old.bare
  | added shifts => added shifts

theorem unpairedAt?_bare (before after : List Parameter) (position : Nat) :
    unpairedAt? (before.map Parameter.bare) (after.map Parameter.bare) position =
      (unpairedAt? before after position).map Parameter.bare := by
  have hunshared : (fun old => !hasName (after.map Parameter.bare) old.name) ∘ Parameter.bare =
      fun old => !hasName after old.name :=
    funext fun old => congrArg (!·) (hasName_bare after old.name)
  rw [unpairedAt?, List.getElem?_map, Option.filter_map, hunshared, unpairedAt?]

theorem keptAt?_bare (before after : List Parameter) (position : Nat) (name : String) :
    keptAt? (before.map Parameter.bare) (after.map Parameter.bare) position name =
      (keptAt? before after position name).map Parameter.bare := by
  rw [keptAt?, keptAt?, ← List.map_take, hasName_bare, lastNamed?_bare]
  split <;> rfl

/-- What a parameter stands for is told by names and positions. -/
theorem pairingAt_bare (before after : List Parameter) (previous : Option String)
    (position : Nat) (name : String) :
    pairingAt (before.map Parameter.bare) (after.map Parameter.bare) previous position name =
      (pairingAt before after previous position name).bare := by
  have hbehind : ((after.map Parameter.bare).drop (position + 1)).any
      (fun p => hasName (before.map Parameter.bare) p.name) =
        (after.drop (position + 1)).any fun p => hasName before p.name := by
    rw [← List.map_drop, List.any_map]
    exact congrArg (List.any _) (funext fun p => hasName_bare before p.name)
  rw [pairingAt, pairingAt, keptAt?_bare, unpairedAt?_bare, hbehind]
  cases keptAt? before after position name with
  | some old => rfl
  | none => cases unpairedAt? before after position <;> rfl

theorem pairings_bare (before after : List Parameter) :
    pairings (before.map Parameter.bare) (after.map Parameter.bare) =
      (pairings before after).map fun (new, position, pairing) =>
        (new.bare, position, pairing.bare) := by
  -- the previous name is told by the orders of the shared names, the same for bare lists
  rw [pairings, pairings, List.zipIdx_map, List.map_map, List.map_map, sharedOrder_bare,
    sharedOrder_bare]
  refine List.map_congr_left fun entry _ => ?_
  obtain ⟨new, position⟩ := entry
  exact congrArg (fun pairing => (new.bare, position, pairing)) (pairingAt_bare ..)

theorem isRemovedAt_bare (before after : List Parameter) (position : Nat) (old : Parameter) :
    isRemovedAt (before.map Parameter.bare) (after.map Parameter.bare) position old.bare =
      isRemovedAt before after position old := by
  have hkept : (fun new : Parameter => (keptAt? (before.map Parameter.bare)
      (after.map Parameter.bare) position new.bare.name).isSome) =
        fun new => (keptAt? before after position new.name).isSome := by
    refine funext fun new => ?_
    change (keptAt? _ _ position new.name).isSome = _
    rw [keptAt?_bare, Option.isSome_map]
  have hshared : hasName (after.map Parameter.bare) old.bare.name = hasName after old.name :=
    hasName_bare after old.name
  rw [isRemovedAt, List.getElem?_map, Option.all_map, hkept, hshared, isRemovedAt]

theorem removals_bare (before after : List Parameter) :
    removals (before.map Parameter.bare) (after.map Parameter.bare) =
      (removals before after).map fun (old, position) => (old.bare, position) := by
  rw [removals, removals, List.zipIdx_map, List.filter_map]
  refine congrArg (List.map _) (List.filter_congr fun entry _ => ?_)
  exact isRemovedAt_bare before after entry.2 entry.1

/-! ## Details -/

theorem parameterDetails_bare (comparator : TypeComparator) (old new : Parameter)
    (position : Nat) :
    parameterDetails comparator old.bare new.bare position =
      parameterDetails comparator old new position := by
  have hrequired : requirednessDetails old.bare new.bare position =
      requirednessDetails old new position := by
    rw [requirednessDetails, requirednessDetails, Parameter.isRequired_bare,
      Parameter.isRequired_bare]
    rfl
  rw [parameterDetails, parameterDetails, hrequired]
  rfl

theorem pairingDetails_bare (comparator : TypeComparator) (new : Parameter) (position : Nat)
    (pairing : Pairing) :
    pairingDetails comparator new.bare position pairing.bare =
      pairingDetails comparator new position pairing := by
  cases pairing with
  | kept old previous =>
    rw [Pairing.bare, pairingDetails, pairingDetails, parameterDetails_bare]
    rfl
  | renamed old =>
    rw [Pairing.bare, pairingDetails, pairingDetails, parameterDetails_bare]
    rfl
  | added shifts =>
    rw [Pairing.bare, pairingDetails, pairingDetails, Parameter.isRequired_bare]
    rfl

theorem compareParameters_bare (comparator : TypeComparator) (before after : List Parameter) :
    compareParameters comparator (before.map Parameter.bare) (after.map Parameter.bare) =
      compareParameters comparator before after := by
  have hpairings : ((pairings before after).flatMap fun p =>
      pairingDetails comparator p.1.bare p.2.1 p.2.2.bare) =
        (pairings before after).flatMap fun p => pairingDetails comparator p.1 p.2.1 p.2.2 :=
    List.flatMap_congr fun p _ => pairingDetails_bare comparator p.1 p.2.1 p.2.2
  rw [compareParameters_eq, compareParameters_eq, pairings_bare, removals_bare, List.flatMap_map,
    List.map_map, ← hpairings]
  rfl

/-- Two versions of a symbol differ as their bare versions do. -/
theorem compareSymbols_bare (comparator : TypeComparator) (before after : Symbol) :
    compareSymbols comparator before.bare after.bare = compareSymbols comparator before after := by
  have hparameters := compareParameters_bare comparator before.parameters after.parameters
  have hdeprecation : deprecationDetails before.bare after.bare =
      deprecationDetails before after := by
    rw [deprecationDetails, deprecationDetails, Symbol.isDeprecated_bare,
      Symbol.isDeprecated_bare]
  rw [compareSymbols, compareSymbols, hdeprecation, ← hparameters]
  rfl

end Signature

end ApiDrift
