import ApiDrift.Proofs.Signature.Reasons
import ApiDrift.Signature.Run
import Mathlib.Data.List.Forall2

set_option autoImplicit false

/-!
# What a comparison logs

A comparison of two symbols looks at pairs of types: those of a parameter and the older one it
stands for, one after the other, and at last the return types.  For each pair that the heuristic
comparator cannot relate one record is logged and one detail is among the differences, and no
other difference is about an unrelated type.  So the two lists go side by side.
-/

namespace ApiDrift

/-- Whether a detail says that a type is unrelated to the older one. -/
def Detail.isUnrelated (d : Detail) : Bool := d.relation? = some .unrelated

namespace TypeComparator

variable {old new : Option TypeExpr}

theorem traceHeuristically_of_related (h : relateHeuristically old new ≠ .unrelated) :
    traceHeuristically old new = [] := by
  unfold traceHeuristically
  split
  · rename_i hunrelated
    exact absurd hunrelated h
  · rfl

/-- Types that cannot be related are both there, and the one record that is logged has their
texts. -/
theorem forall₂_records_heuristic {R : Detail → Journal.Record → Prop} {d : Detail}
    (h : ∀ previous type, old = some previous → new = some type →
      R d (Event.unrelatedTypes previous.normalized type.normalized).record) :
    List.Forall₂ R (if heuristic.relate old new = .unrelated then [d] else [])
      (heuristic.run old new).records := by
  change List.Forall₂ R (if relateHeuristically old new = .unrelated then [d] else [])
    ((traceHeuristically old new).map Event.record)
  split
  · rename_i hunrelated
    cases old with
    | none => cases new <;> cases hunrelated
    | some previous =>
      cases new with
      | none => cases hunrelated
      | some type =>
        simp only [traceHeuristically, hunrelated]
        exact .cons (h previous type rfl rfl) .nil
  · rename_i hrelated
    rw [traceHeuristically_of_related hrelated]
    exact .nil

end TypeComparator

namespace Signature

/-- The record of two types that cannot be related shows their normalised texts. -/
def unrelatedRecord (previous type : TypeExpr) : Journal.Record :=
  ⟨.debug, "apidelta.analyzers.type_relation",
    "Unrelated type change " ++ Text.quote previous.normalized ++ " -> " ++
      Text.quote type.normalized⟩

/-- A record of a comparison of two symbols tells of the types that a detail is about: those of
a parameter and the older one it stands for, or the return types. -/
inductive TellsOf (before after : Symbol) : Detail → Journal.Record → Prop
  | parameter {new old : Parameter} {position : Nat} {pairing : Pairing} {previous type : TypeExpr}
      (hpairing : (new, position, pairing) ∈ pairings before.parameters after.parameters)
      (hold : pairing.old? = some old) (hprevious : old.type = some previous)
      (htype : new.type = some type) :
    TellsOf before after
      (.parameterRetyped new.name position .unrelated (some previous.raw) (some type.raw))
      (unrelatedRecord previous type)
  | result {previous type : TypeExpr} (hprevious : before.returnType = some previous)
      (htype : after.returnType = some type) :
    TellsOf before after (.returnRetyped .unrelated (some previous.raw) (some type.raw))
      (unrelatedRecord previous type)

/-! ## Unrelated types among the differences -/

section Unrelated

variable (comparator : TypeComparator) (old new : Parameter) (position : Nat)

theorem filter_unrelated_retypedDetails :
    (retypedDetails comparator old new position).filter Detail.isUnrelated =
      if comparator.relate old.type new.type = .unrelated then
        [.parameterRetyped new.name position .unrelated (writtenText old.type)
          (writtenText new.type)]
      else [] := by
  unfold retypedDetails
  cases comparator.relate old.type new.type <;> rfl

theorem filter_unrelated_returnDetails (old new : Option TypeExpr) :
    (returnDetails comparator old new).filter Detail.isUnrelated =
      if comparator.relate old new = .unrelated then
        [.returnRetyped .unrelated (writtenText old) (writtenText new)]
      else [] := by
  unfold returnDetails
  cases comparator.relate old new <;> rfl

theorem filter_unrelated_parameterDetails :
    (parameterDetails comparator old new position).filter Detail.isUnrelated =
      (retypedDetails comparator old new position).filter Detail.isUnrelated := by
  have hrequired : (requirednessDetails old new position).filter Detail.isUnrelated = [] := by
    unfold requirednessDetails
    cases old.isRequired <;> cases new.isRequired <;> rfl
  rw [parameterDetails, List.filter_append, hrequired, List.append_nil]

/-- What else a parameter is reported for is not about its type. -/
theorem filter_unrelated_pairingDetails (pairing : Pairing) :
    (pairingDetails comparator new position pairing).filter Detail.isUnrelated =
      pairing.old?.toList.flatMap fun old =>
        (retypedDetails comparator old new position).filter Detail.isUnrelated := by
  cases pairing with
  | kept old previous =>
    have hreordered :
        (reorderedDetails new.name position previous).filter Detail.isUnrelated = [] := by
      refine List.filter_eq_nil_iff.mpr fun d hd => ?_
      obtain ⟨_, _, _, rfl⟩ := mem_reorderedDetails_iff.mp hd
      exact Bool.false_ne_true
    rw [pairingDetails, List.filter_append, hreordered, List.nil_append,
      filter_unrelated_parameterDetails]
    exact (List.flatMap_singleton _ _).symm
  | renamed old =>
    rw [pairingDetails, List.filter_cons_of_neg Bool.false_ne_true,
      filter_unrelated_parameterDetails]
    exact (List.flatMap_singleton _ _).symm
  | added shifts => rfl

theorem filter_unrelated_compareParameters (before after : List Parameter) :
    (compareParameters comparator before after).filter Detail.isUnrelated =
      (pairings before after).flatMap fun p => p.2.2.old?.toList.flatMap fun old =>
        (retypedDetails comparator old p.1 p.2.1).filter Detail.isUnrelated := by
  have hremoved : (((removals before after).map fun p =>
      Detail.parameterRemoved p.1.name p.2 (writtenText p.1.type)).filter
        Detail.isUnrelated) = [] := by
    refine List.filter_eq_nil_iff.mpr fun d hd => ?_
    obtain ⟨_, _, rfl⟩ := List.mem_map.mp hd
    exact Bool.false_ne_true
  rw [compareParameters_eq, List.filter_append, hremoved, List.append_nil, List.filter_flatMap]
  exact List.flatMap_congr fun p _ => filter_unrelated_pairingDetails comparator p.1 p.2.1 p.2.2

end Unrelated

/-! ## The trace of a comparison -/

theorem trace_eq_append (comparator : TypeComparator) (before after : Symbol) :
    trace comparator before after =
      ((pairings before.parameters after.parameters).flatMap fun p =>
        p.2.2.old?.toList.flatMap fun old => comparator.trace old.type p.1.type) ++
      comparator.trace before.returnType after.returnType := by
  rw [trace, comparedTypes, List.flatMap_append, List.flatMap_singleton,
    List.filterMap_eq_flatMap_toList, List.flatMap_assoc]
  congr 1
  refine List.flatMap_congr fun p _ => ?_
  obtain ⟨new, position, pairing⟩ := p
  dsimp only
  cases pairing.old? <;> simp

/-- What is logged while two symbols are compared is the trace of the comparison. -/
theorem records_run_eq_map_trace (comparator : TypeComparator) (before after : Symbol) :
    (run comparator before after).records = (trace comparator before after).map Event.record := by
  rw [records_run, records_runParameters, trace_eq_append, List.map_append, List.map_flatMap]
  congr 1
  refine List.flatMap_congr fun p _ => ?_
  rw [List.map_flatMap]
  rfl

/-! ## Differences and records side by side -/

variable {before after : Symbol}

theorem tellsOf_retypedDetails {new old : Parameter} {position : Nat} {pairing : Pairing}
    (hpairing : (new, position, pairing) ∈ pairings before.parameters after.parameters)
    (hold : pairing.old? = some old) :
    List.Forall₂ (TellsOf before after)
      ((retypedDetails .heuristic old new position).filter Detail.isUnrelated)
      (TypeComparator.heuristic.run old.type new.type).records := by
  rw [filter_unrelated_retypedDetails]
  refine TypeComparator.forall₂_records_heuristic fun previous type hprevious htype => ?_
  rw [hprevious, htype]
  exact .parameter hpairing hold hprevious htype

theorem tellsOf_returnDetails (before after : Symbol) :
    List.Forall₂ (TellsOf before after)
      ((returnDetails .heuristic before.returnType after.returnType).filter Detail.isUnrelated)
      (TypeComparator.heuristic.run before.returnType after.returnType).records := by
  rw [filter_unrelated_returnDetails]
  refine TypeComparator.forall₂_records_heuristic fun previous type hprevious htype => ?_
  rw [hprevious, htype]
  exact .result hprevious htype

theorem tellsOf_compareParameters (before after : Symbol) :
    List.Forall₂ (TellsOf before after)
      ((compareParameters .heuristic before.parameters after.parameters).filter Detail.isUnrelated)
      (runParameters .heuristic before.parameters after.parameters).records := by
  rw [filter_unrelated_compareParameters, records_runParameters]
  refine List.rel_flatMap
    (R := fun p q => p = q ∧ p ∈ pairings before.parameters after.parameters) ?_ ?_
  · exact List.forall₂_same.mpr fun p hp => ⟨rfl, hp⟩
  · rintro p _ ⟨rfl, hp⟩
    refine List.rel_flatMap (R := fun a b => a = b ∧ p.2.2.old? = some a) ?_ ?_
    · exact List.forall₂_same.mpr fun old hold => ⟨rfl, Option.mem_toList.mp hold⟩
    · rintro old _ ⟨rfl, hold⟩
      exact tellsOf_retypedDetails hp hold

/-- The records of a comparison tell, one by one and in their order, of the differences that are
about unrelated types. -/
theorem tellsOf_compareSymbols (before after : Symbol) :
    List.Forall₂ (TellsOf before after)
      ((compareSymbols .heuristic before after).filter Detail.isUnrelated)
      (run .heuristic before after).records := by
  have hdeprecation : (deprecationDetails before after).filter Detail.isUnrelated = [] := by
    refine List.filter_eq_nil_iff.mpr fun d hd => ?_
    rw [eq_of_mem_deprecationDetails hd]
    exact Bool.false_ne_true
  rw [compareSymbols, List.filter_append, List.filter_append, hdeprecation, List.append_nil,
    records_run]
  exact List.rel_append (tellsOf_compareParameters before after)
    (tellsOf_returnDetails before after)

end Signature

end ApiDrift
