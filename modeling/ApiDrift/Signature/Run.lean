import ApiDrift.Signature.Compare

set_option autoImplicit false

/-!
# Running a comparison

Two versions of a symbol are compared in steps: parameter by parameter in newer order,
and then the return type.  Every step that relates two types may log something.  The
differences that the steps come to are those of the comparison, and what they log is
its trace.
-/

namespace ApiDrift.Signature

/-! ## Steps -/

/-- Compares a parameter with the older one it stands for. -/
def runParameter (comparator : TypeComparator) (old new : Parameter) (position : Nat) :
    Traced (List Detail) := do
  let relation ← comparator.run old.type new.type
  return parameterDetails (.constant relation) old new position

/-- Looks at one parameter of the newer list. -/
def runPairing (comparator : TypeComparator) (new : Parameter) (position : Nat) :
    Pairing → Traced (List Detail)
  | .kept old previous => do
    let details ← runParameter comparator old new position
    return reorderedDetails new.name position previous ++ details
  | .renamed old => do
    let details ← runParameter comparator old new position
    return .parameterRenamed position old.name new.name :: details
  | .added shifts =>
    return [.parameterAdded new.name position (writtenText new.type) (new.isRequired || shifts)]

/-- Compares two parameter lists. -/
def runParameters (comparator : TypeComparator) (before after : List Parameter) :
    Traced (List Detail) := do
  let details ← Traced.each (fun p => runPairing comparator p.1 p.2.1 p.2.2)
    (pairings before after)
  return details.flatten ++ (removals before after).map fun p =>
    .parameterRemoved p.1.name p.2 (writtenText p.1.type)

/-- Compares two return types. -/
def runReturn (comparator : TypeComparator) (old new : Option TypeExpr) :
    Traced (List Detail) := do
  let relation ← comparator.run old new
  return returnDetails (.constant relation) old new

/-- Compares two versions of a symbol. -/
def run (comparator : TypeComparator) (before after : Symbol) : Traced (List Detail) := do
  let parameters ← runParameters comparator before.parameters after.parameters
  let result ← runReturn comparator before.returnType after.returnType
  return parameters ++ result ++ deprecationDetails before after

/-! ## Results of the steps -/

section Results

variable (comparator : TypeComparator)

theorem result_runPairing (new : Parameter) (position : Nat) (pairing : Pairing) :
    (runPairing comparator new position pairing).result =
      pairingDetails comparator new position pairing := by
  cases pairing <;> rfl

theorem result_runParameters (before after : List Parameter) :
    (runParameters comparator before after).result = compareParameters comparator before after := by
  unfold runParameters
  rw [Traced.result_bind, Traced.result_pure, Traced.result_each, ← List.flatMap_def,
    compareParameters_eq]
  simp only [result_runPairing]

theorem result_run (before after : Symbol) :
    (run comparator before after).result = compareSymbols comparator before after := by
  unfold run
  rw [Traced.result_bind, Traced.result_bind, Traced.result_pure, result_runParameters]
  rfl

end Results

/-! ## Records of the steps -/

section Records

variable (comparator : TypeComparator)

/-- Looking at a parameter logs what relating its type to the older one does, if it stands for an
older one. -/
theorem records_runPairing (new : Parameter) (position : Nat) (pairing : Pairing) :
    (runPairing comparator new position pairing).records =
      pairing.old?.toList.flatMap fun old => (comparator.run old.type new.type).records := by
  cases pairing with
  | kept old previous | renamed old => simp [runPairing, runParameter, Pairing.old?]
  | added shifts => rfl

theorem records_runParameters (before after : List Parameter) :
    (runParameters comparator before after).records =
      (pairings before after).flatMap fun p =>
        p.2.2.old?.toList.flatMap fun old => (comparator.run old.type p.1.type).records := by
  unfold runParameters
  rw [Traced.records_bind, Traced.records_pure, List.append_nil, Traced.records_each]
  simp only [records_runPairing]

theorem records_run (before after : Symbol) :
    (run comparator before after).records =
      (runParameters comparator before.parameters after.parameters).records ++
        (comparator.run before.returnType after.returnType).records := by
  unfold run runReturn
  simp only [Traced.records_bind, Traced.records_pure, List.append_nil]

end Records

end ApiDrift.Signature
