import ApiDrift.Proofs.Signature.Places
import Mathlib.Data.List.Count

set_option autoImplicit false

/-!
# Comparing two signatures the other way round

Comparing the newer signature with the older one finds the same differences in the
mirror: what was added is removed, what became wider becomes narrower, what became
optional becomes required.  The comparison itself goes through the newer list alone and
keeps the older one for the rest, so the mirror is not in its steps.  It is in what they
amount to where no name is repeated: the places of the differences and the partners.
-/

namespace ApiDrift

/-! ## Kinds in the mirror -/

/-- The kind of a difference seen from the newer version. -/
def DetailKind.mirror : DetailKind → DetailKind
  | exportAdded => exportRemoved
  | exportRemoved => exportAdded
  | parameterAdded => parameterRemoved
  | parameterRemoved => parameterAdded
  | parameterReordered => parameterReordered
  | parameterRenamed => parameterRenamed
  | parameterTypeWidened => parameterTypeNarrowed
  | parameterTypeNarrowed => parameterTypeWidened
  | parameterTypeChanged => parameterTypeChanged
  | parameterMadeOptional => parameterMadeRequired
  | parameterMadeRequired => parameterMadeOptional
  | returnTypeWidened => returnTypeNarrowed
  | returnTypeNarrowed => returnTypeWidened
  | returnTypeChanged => returnTypeChanged
  | deprecated => deprecated

theorem DetailKind.mirror_mirror (kind : DetailKind) : kind.mirror.mirror = kind := by
  cases kind <;> rfl

theorem DetailKind.mirror_injective : Function.Injective mirror :=
  Function.Involutive.injective mirror_mirror

/-- The relation of two types is the converse one when they change places. -/
def TypeComparator.IsReversible (comparator : TypeComparator) : Prop :=
  ∀ old new, comparator.relate new old = (comparator.relate old new).converse

theorem TypeComparator.isReversible_heuristic : heuristic.IsReversible :=
  relateHeuristically_swap

namespace Signature

variable {comparator : TypeComparator} {before after : List Parameter}

/-! ## Numbers of alterations -/

theorem alterations_swap (hreversible : comparator.IsReversible) (old new : Parameter) :
    alterations comparator new old = (alterations comparator old new).map DetailKind.mirror := by
  unfold alterations parameterDetails retypedDetails requirednessDetails
  rw [hreversible old.type new.type]
  cases comparator.relate old.type new.type <;> cases old.isRequired <;>
    cases new.isRequired <;> rfl

theorem filter_isAlteration_alterations (comparator : TypeComparator) (old new : Parameter) :
    (alterations comparator old new).filter isAlteration = alterations comparator old new :=
  List.filter_eq_self.mpr fun _ => isAlteration_of_mem_alterations

/-- A parameter is altered only against the older one it stands for. -/
theorem filter_isAlteration_pairingDetails (comparator : TypeComparator) (new : Parameter)
    (position : Nat) (pairing : Pairing) :
    ((pairingDetails comparator new position pairing).map Detail.kind).filter isAlteration =
      pairing.old?.toList.flatMap fun old => alterations comparator old new := by
  cases pairing with
  | kept old previous =>
    have hreordered : ((reorderedDetails new.name position previous).map Detail.kind).filter
        isAlteration = [] := by
      rw [List.filter_eq_nil_iff]
      intro kind hkind
      obtain ⟨d, hd, rfl⟩ := List.mem_map.mp hkind
      rw [kind_of_mem_reorderedDetails hd]
      simp [isAlteration]
    rw [pairingDetails, List.map_append, List.filter_append, hreordered, List.nil_append,
      map_kind_parameterDetails, filter_isAlteration_alterations]
    exact (List.flatMap_singleton _ _).symm
  | renamed old =>
    rw [pairingDetails, List.map_cons, Detail.kind, List.filter_cons_of_neg (by decide),
      map_kind_parameterDetails, filter_isAlteration_alterations]
    exact (List.flatMap_singleton _ _).symm
  | added shifts => rfl

/-- The alterations of a comparison are those of the partners. -/
theorem filter_isAlteration_compareParameters (comparator : TypeComparator)
    (before after : List Parameter) :
    ((compareParameters comparator before after).map Detail.kind).filter isAlteration =
      (partners before after).flatMap fun p => alterations comparator p.1 p.2 := by
  have hremovals : (((removals before after).map fun p =>
      Detail.parameterRemoved p.1.name p.2 (writtenText p.1.type)).map Detail.kind).filter
        isAlteration = [] := by
    rw [List.map_map, List.filter_eq_nil_iff]
    intro kind hkind
    obtain ⟨_, _, rfl⟩ := List.mem_map.mp hkind
    simp [Detail.kind, isAlteration]
  rw [compareParameters_eq, List.map_append, List.filter_append, hremovals, List.append_nil,
    List.map_flatMap, List.filter_flatMap, partners, List.filterMap_eq_flatMap_toList,
    List.flatMap_assoc]
  refine List.flatMap_congr fun p _ => ?_
  obtain ⟨new, position, pairing⟩ := p
  rw [filter_isAlteration_pairingDetails]
  cases hold : pairing.old? <;> simp [hold]

theorem filter_isAlteration_compareParameters_swap (hreversible : comparator.IsReversible)
    (hbefore : HasDistinctNames before) (hafter : HasDistinctNames after) :
    (((compareParameters comparator after before).map Detail.kind).filter isAlteration).Perm
      ((((compareParameters comparator before after).map Detail.kind).filter isAlteration).map
        DetailKind.mirror) := by
  rw [filter_isAlteration_compareParameters, filter_isAlteration_compareParameters,
    List.map_flatMap]
  refine ((partners_swap hbefore hafter).flatMap_right _).trans ?_
  rw [List.flatMap_map]
  refine List.Perm.of_eq (List.flatMap_congr fun p _ => ?_)
  exact alterations_swap hreversible p.1 p.2

theorem count_kind_of_isAlteration (hreversible : comparator.IsReversible)
    (hbefore : HasDistinctNames before) (hafter : HasDistinctNames after) {kind : DetailKind}
    (hkind : isAlteration kind = true) :
    ((compareParameters comparator before after).map Detail.kind).count kind =
      ((compareParameters comparator after before).map Detail.kind).count kind.mirror := by
  have hmirror : isAlteration kind.mirror = true := by
    revert hkind
    cases kind <;> simp [isAlteration, DetailKind.mirror]
  have hswap := filter_isAlteration_compareParameters_swap hreversible hbefore hafter
  rw [← List.count_filter hkind, ← List.count_filter hmirror, hswap.count_eq,
    List.count_map_of_injective _ _ DetailKind.mirror_injective]

/-! ## Numbers of differences -/

theorem count_kind_compareParameters (hreversible : comparator.IsReversible)
    (hbefore : HasDistinctNames before) (hafter : HasDistinctNames after) (kind : DetailKind) :
    ((compareParameters comparator before after).map Detail.kind).count kind =
      ((compareParameters comparator after before).map Detail.kind).count kind.mirror := by
  have hnone : ∀ {kind : DetailKind} {before after : List Parameter},
      kind.isAboutParameter = false →
        ((compareParameters comparator before after).map Detail.kind).count kind = 0 := by
    intro kind before after hkind
    refine count_kind_eq_zero fun d hd hsame => ?_
    rw [← hsame, isAboutParameter_of_mem_compareParameters hd] at hkind
    simp at hkind
  cases kind with
  | parameterAdded =>
    rw [count_kind_eq_length_placesOf, count_kind_eq_length_placesOf, DetailKind.mirror,
      placesOf_added hbefore hafter, placesOf_removed]
  | parameterRemoved =>
    rw [count_kind_eq_length_placesOf, count_kind_eq_length_placesOf, DetailKind.mirror,
      placesOf_added hafter hbefore, placesOf_removed]
  | parameterReordered =>
    rw [count_kind_eq_length_placesOf, count_kind_eq_length_placesOf, DetailKind.mirror,
      length_placesOf_reordered_swap hbefore hafter]
  | parameterRenamed =>
    rw [count_kind_eq_length_placesOf, count_kind_eq_length_placesOf, DetailKind.mirror,
      ← List.length_map (f := Prod.snd), positions_renamed_swap hbefore hafter, List.length_map]
  | parameterTypeWidened | parameterTypeNarrowed | parameterTypeChanged | parameterMadeOptional
  | parameterMadeRequired => exact count_kind_of_isAlteration hreversible hbefore hafter rfl
  | exportAdded | exportRemoved | returnTypeWidened | returnTypeNarrowed | returnTypeChanged
  | deprecated => rw [hnone rfl, hnone rfl]

/-! ## Symbols -/

theorem map_kind_returnDetails_swap (hreversible : comparator.IsReversible)
    (old new : Option TypeExpr) :
    (returnDetails comparator new old).map Detail.kind =
      ((returnDetails comparator old new).map Detail.kind).map DetailKind.mirror := by
  unfold returnDetails
  rw [hreversible old new]
  cases comparator.relate old new <;> rfl

theorem kind_of_mem_deprecationDetails {before after : Symbol} {d : Detail}
    (h : d ∈ deprecationDetails before after) : d.kind = .deprecated := by
  rw [eq_of_mem_deprecationDetails h]
  rfl

theorem isAboutParameter_of_mem_returnDetails {old new : Option TypeExpr} {d : Detail}
    (h : d ∈ returnDetails comparator old new) : d.kind.isAboutParameter = false := by
  obtain ⟨shift, rfl⟩ := exists_shift_of_mem_returnDetails h
  cases shift <;> rfl

/-- The parameters alone decide where there is a difference of a parameter. -/
theorem placesOf_compareSymbols {kind : DetailKind} (hkind : kind.isAboutParameter = true)
    (comparator : TypeComparator) (before after : Symbol) :
    placesOf kind (compareSymbols comparator before after) =
      placesOf kind (compareParameters comparator before.parameters after.parameters) := by
  have hreturn : placesOf kind
      (returnDetails comparator before.returnType after.returnType) = [] := by
    refine placesOf_eq_nil fun d hd hsame => ?_
    rw [← hsame, isAboutParameter_of_mem_returnDetails hd] at hkind
    simp at hkind
  have hdeprecation : placesOf kind (deprecationDetails before after) = [] := by
    refine placesOf_eq_nil fun d hd hsame => ?_
    rw [← hsame, kind_of_mem_deprecationDetails hd] at hkind
    simp [DetailKind.isAboutParameter] at hkind
  rw [compareSymbols, placesOf_append, placesOf_append, hreturn, hdeprecation, List.append_nil,
    List.append_nil]

/-- Differences seen from the newer version: as many of each kind as there are of its
mirror, the same parameters added as removed and renames at the same positions.  A
deprecation is new one way round only. -/
structure Mirrored (details details' : List Detail) : Prop where
  count : ∀ kind, kind ≠ .deprecated →
    (details.map Detail.kind).count kind = (details'.map Detail.kind).count kind.mirror
  added : placesOf .parameterAdded details = placesOf .parameterRemoved details'
  removed : placesOf .parameterRemoved details = placesOf .parameterAdded details'
  renamed : (placesOf .parameterRenamed details).map Prod.snd =
    (placesOf .parameterRenamed details').map Prod.snd

theorem compareSymbols_mirrored (hreversible : comparator.IsReversible) {before after : Symbol}
    (hbefore : HasDistinctNames before.parameters) (hafter : HasDistinctNames after.parameters) :
    Mirrored (compareSymbols comparator before after) (compareSymbols comparator after before) := by
  refine ⟨?_, ?_, ?_, ?_⟩
  · intro kind hkind
    have hmirror : kind.mirror ≠ .deprecated := by
      revert hkind
      cases kind <;> decide
    have hdeprecation : ∀ {kind : DetailKind} {before after : Symbol}, kind ≠ .deprecated →
        ((deprecationDetails before after).map Detail.kind).count kind = 0 := by
      intro kind before after hkind
      refine count_kind_eq_zero fun d hd hsame => hkind ?_
      rw [← hsame, kind_of_mem_deprecationDetails hd]
    simp only [compareSymbols, List.map_append, List.count_append, hdeprecation hkind,
      hdeprecation hmirror, Nat.add_zero]
    rw [count_kind_compareParameters hreversible hbefore hafter,
      map_kind_returnDetails_swap hreversible before.returnType after.returnType,
      List.count_map_of_injective _ _ DetailKind.mirror_injective]
  · rw [placesOf_compareSymbols rfl, placesOf_compareSymbols rfl, placesOf_added hbefore hafter,
      placesOf_removed]
  · rw [placesOf_compareSymbols rfl, placesOf_compareSymbols rfl, placesOf_added hafter hbefore,
      placesOf_removed]
  · rw [placesOf_compareSymbols rfl, placesOf_compareSymbols rfl,
      positions_renamed_swap hbefore hafter]

end Signature

end ApiDrift
