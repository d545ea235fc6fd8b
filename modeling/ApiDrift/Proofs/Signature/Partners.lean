import ApiDrift.Proofs.Signature.Pairing
import Mathlib.Data.Prod.Basic

set_option autoImplicit false

/-!
# Partners

Where no name is repeated, a newer parameter stands for the older one of its name, or
for the one at its position if neither has a namesake.  That says nothing about which
list is gone through, so the same two parameters are partners either way round.
-/

namespace ApiDrift.Signature

variable {before after : List Parameter} {position : Nat} {old new : Parameter}

/-! ## What a parameter stands for -/

/-- A parameter is kept, renamed or added, and each case says what the lists have at its
name and at its position. -/
theorem pairingAt_cases (hbefore : HasDistinctNames before) (hafter : HasDistinctNames after)
    (hat : after[position]? = some new) (previous : Option String) :
    (∃ old ∈ before, old.name = new.name ∧
        pairingAt before after previous position new.name = .kept old previous) ∨
    (hasName before new.name = false ∧
      ∃ old, before[position]? = some old ∧ hasName after old.name = false ∧
        pairingAt before after previous position new.name = .renamed old) ∨
    (hasName before new.name = false ∧
      (∀ old, before[position]? = some old → hasName after old.name = true) ∧
        ∃ shifts, pairingAt before after previous position new.name = .added shifts) := by
  cases hshared : hasName before new.name with
  | true =>
    obtain ⟨old, hold, hname⟩ := List.mem_map.mp (hasName_iff.mp hshared)
    exact .inl ⟨old, hold, hname, pairingAt_of_shared hbefore hafter hat hold hname previous⟩
  | false =>
    by_cases hpaired : ∀ old, before[position]? = some old → hasName after old.name = true
    · exact .inr (.inr ⟨rfl, hpaired, _, pairingAt_of_added hshared hpaired previous⟩)
    · simp only [not_forall, Bool.not_eq_true] at hpaired
      obtain ⟨old, hold, hunpaired⟩ := hpaired
      exact .inr (.inl ⟨rfl, old, hold, hunpaired,
        pairingAt_of_unpaired hshared hold hunpaired previous⟩)

/-- A parameter that is not removed has a namesake, or one that stands for it at its
position. -/
theorem isRemovedAt_iff (hafter : HasDistinctNames after) :
    isRemovedAt before after position old = true ↔
      hasName after old.name = false ∧
        ∀ new, after[position]? = some new → hasName before new.name = true := by
  rw [isRemovedAt, Bool.and_eq_true, Bool.not_eq_true', Option.all_eq_true]
  refine and_congr_right fun _ => forall_congr' fun new => imp_congr_right fun hat => ?_
  rw [keptAt?, hafter.hasName_take_eq_false hat, if_neg Bool.false_ne_true,
    Option.isSome_iff_ne_none, ne_eq, lastNamed?_eq_none_iff, Bool.not_eq_false]

theorem unpairedAt?_isSome_iff :
    (unpairedAt? before after position).isSome = true ↔
      ∃ old, before[position]? = some old ∧ hasName after old.name = false := by
  rw [unpairedAt?, Option.isSome_filter, Option.any_eq_true]
  simp

/-! ## Pairs of partners -/

/-- The newer parameters that stand for older ones, each with the one it stands for. -/
def partners (before after : List Parameter) : List (Parameter × Parameter) :=
  (pairings before after).filterMap fun (new, _, pairing) =>
    pairing.old?.map fun old => (old, new)

/-- A newer parameter stands for the older one of its name, or for one at its position if
neither has a namesake. -/
def StandsFor (before after : List Parameter) (old new : Parameter) : Prop :=
  (old ∈ before ∧ new ∈ after ∧ old.name = new.name) ∨
    ∃ position : Nat, before[position]? = some old ∧ after[position]? = some new ∧
      hasName after old.name = false ∧ hasName before new.name = false

theorem standsFor_comm : StandsFor before after old new ↔ StandsFor after before new old := by
  refine or_congr ⟨?_, ?_⟩ (exists_congr fun position => ⟨?_, ?_⟩)
  · exact fun h => ⟨h.2.1, h.1, h.2.2.symm⟩
  · exact fun h => ⟨h.2.1, h.1, h.2.2.symm⟩
  · exact fun h => ⟨h.2.1, h.1, h.2.2.2, h.2.2.1⟩
  · exact fun h => ⟨h.2.1, h.1, h.2.2.2, h.2.2.1⟩

theorem mem_partners_iff (hbefore : HasDistinctNames before) (hafter : HasDistinctNames after) :
    (old, new) ∈ partners before after ↔ StandsFor before after old new := by
  have hmem : (old, new) ∈ partners before after ↔
      ∃ position, after[position]? = some new ∧
        (pairingAt before after (previousName? before after new.name) position new.name).old? =
          some old := by
    simp only [partners, List.mem_filterMap, Prod.exists, mem_pairings_iff, Option.map_eq_some_iff,
      Prod.mk.injEq]
    constructor
    · rintro ⟨_, position, _, ⟨hat, rfl⟩, _, hold, rfl, rfl⟩
      exact ⟨position, hat, hold⟩
    · rintro ⟨position, hat, hold⟩
      exact ⟨new, position, _, ⟨hat, rfl⟩, old, hold, rfl, rfl⟩
  rw [hmem]
  constructor
  · rintro ⟨position, hat, hpartner⟩
    obtain ⟨old', hold, hname, hpairing⟩ | ⟨hunshared, old', hold, hunpaired, hpairing⟩ |
      ⟨_, _, shifts, hpairing⟩ := pairingAt_cases hbefore hafter hat
        (previousName? before after new.name)
    · rw [hpairing] at hpartner
      cases hpartner
      exact .inl ⟨hold, List.mem_of_getElem? hat, hname⟩
    · rw [hpairing] at hpartner
      cases hpartner
      exact .inr ⟨position, hold, hat, hunpaired, hunshared⟩
    · rw [hpairing] at hpartner
      cases hpartner
  · rintro (⟨hold, hnew, hname⟩ | ⟨position, hold, hat, hunpaired, hunshared⟩)
    · obtain ⟨position, hat⟩ := List.mem_iff_getElem?.mp hnew
      refine ⟨position, hat, ?_⟩
      rw [pairingAt_of_shared hbefore hafter hat hold hname, Pairing.old?]
    · refine ⟨position, hat, ?_⟩
      rw [pairingAt_of_unpaired hunshared hold hunpaired, Pairing.old?]

/-- No newer parameter has two partners, since none is listed twice. -/
theorem partners_nodup (before : List Parameter) (hafter : HasDistinctNames after) :
    (partners before after).Nodup := by
  have hnames : (pairings before after).Pairwise fun p p' => p.1.name ≠ p'.1.name := by
    have hfst : (pairings before after).map (fun p => p.1.name) = after.map Parameter.name := by
      rw [pairings, List.map_map]
      conv => rhs; rw [← List.zipIdx_map_fst 0 after, List.map_map]
      rfl
    rw [HasDistinctNames, ← hfst, List.nodup_iff_pairwise_ne, List.pairwise_map] at hafter
    exact hafter
  rw [partners, List.Nodup, List.pairwise_filterMap]
  refine hnames.imp fun hdifferent p hp p' hp' hsame => hdifferent ?_
  obtain ⟨_, _, rfl⟩ := Option.map_eq_some_iff.mp hp
  obtain ⟨_, _, rfl⟩ := Option.map_eq_some_iff.mp hp'
  exact congrArg (fun q => q.2.name) hsame

theorem partners_swap (hbefore : HasDistinctNames before) (hafter : HasDistinctNames after) :
    (partners after before).Perm ((partners before after).map Prod.swap) := by
  have hnodup := (partners_nodup before hafter).map Prod.swap_injective
  refine (List.perm_ext_iff_of_nodup (partners_nodup after hbefore) hnodup).mpr ?_
  rintro ⟨new, old⟩
  have hswap : (new, old) = (old, new).swap := rfl
  rw [mem_partners_iff hafter hbefore, hswap, List.mem_map_of_injective Prod.swap_injective,
    mem_partners_iff hbefore hafter, standsFor_comm]

end ApiDrift.Signature
