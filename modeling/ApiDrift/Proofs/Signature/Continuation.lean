import ApiDrift.Proofs.Signature.Compatibility
import ApiDrift.Proofs.Signature.Partners

set_option autoImplicit false

/-!
# Parameters that continue older ones break nothing

A comparison of two lists of distinct names that has no breaking detail shows that the newer
list continues the older one.  The converse holds as well: where every older parameter goes
on at its position, the shared names have one order, none of them stands behind the older
parameters, and nothing is removed.  So whether a comparison breaks callers is a condition
on the positions, although the comparison goes by names and ranks.
-/

namespace ApiDrift.Signature

variable {comparator : TypeComparator} {before after : List Parameter} {position : Nat}
  {old new : Parameter}

/-! ## Shared names of lists in line -/

/-- Two lists of names have the same shared names in the same order if at every position of
the first one both names are shared or neither is, shared ones are the same, and no name
behind those positions is shared. -/
theorem filter_eq_of_in_line {shared shared' : String → Bool} {names others : List String}
    (hline : ∀ (i : Nat) n, names[i]? = some n →
      ∃ n', others[i]? = some n' ∧ shared' n' = shared n ∧ (shared n = true → n' = n))
    (hbehind : ∀ (i : Nat) n', others[i]? = some n' → names.length ≤ i → shared' n' = false) :
    names.filter shared = others.filter shared' := by
  induction names generalizing others with
  | nil =>
    refine (List.filter_eq_nil_iff.mpr fun n' hn' => ?_).symm
    obtain ⟨i, hi⟩ := List.mem_iff_getElem?.mp hn'
    rw [hbehind i n' hi (Nat.zero_le i)]
    exact Bool.false_ne_true
  | cons head names ih =>
    cases others with
    | nil =>
      obtain ⟨n', hn', _⟩ := hline 0 head rfl
      simp at hn'
    | cons head' others =>
      obtain ⟨n', hn', halike, hsame⟩ := hline 0 head rfl
      cases hn'
      have hrest : names.filter shared = others.filter shared' := by
        apply ih
        · exact fun i n hn => hline (i + 1) n hn
        · exact fun i n hn hle => hbehind (i + 1) n hn (Nat.succ_le_succ hle)
      rw [List.filter_cons, List.filter_cons, halike, hrest]
      cases hhead : shared head with
      | true => rw [hsame hhead]
      | false => rfl

/-- In lists in line a parameter is shared exactly if the one it meets is, and then the two
have one name. -/
theorem InLine.exists_alike (hline : InLine before after) (hold : before[position]? = some old) :
    ∃ new, after[position]? = some new ∧ hasName before new.name = hasName after old.name ∧
      (hasName after old.name = true → new.name = old.name) := by
  obtain ⟨new, hat, hmeet⟩ := hline position old hold
  refine ⟨new, hat, ?_⟩
  rcases hmeet with hname | ⟨hunshared, hunshared'⟩
  · have hshared : hasName before new.name = true := hname ▸ hasName_of_getElem? hold
    have hshared' : hasName after old.name = true := hname ▸ hasName_of_getElem? hat
    exact ⟨hshared.trans hshared'.symm, fun _ => hname⟩
  · exact ⟨hunshared'.trans hunshared.symm,
      fun hshared => absurd (hunshared.symm.trans hshared) Bool.false_ne_true⟩

/-- The shared names of lists in line have one order. -/
theorem InLine.sharedOrder_eq (hline : InLine before after) (hafter : HasDistinctNames after) :
    sharedOrder before after = sharedOrder after before := by
  apply filter_eq_of_in_line
  · intro i name hname
    obtain ⟨p, hp, rfl⟩ := getElem?_names_eq_some_iff.mp hname
    obtain ⟨p', hp', halike, hsame⟩ := hline.exists_alike hp
    exact ⟨p'.name, getElem?_name hp', halike, hsame⟩
  · intro i name hname hbehind
    obtain ⟨p', hp', rfl⟩ := getElem?_names_eq_some_iff.mp hname
    rw [List.length_map] at hbehind
    exact hline.unshared_behind hafter hp' hbehind

/-- In lists in line a shared name has itself at its rank. -/
theorem InLine.previousName?_eq_self (hline : InLine before after)
    (hafter : HasDistinctNames after) (hat : after[position]? = some new)
    (hshared : hasName before new.name = true) :
    previousName? before after new.name = some new.name := by
  have hname : new.name ∈ sharedOrder after before :=
    mem_sharedOrder_iff.mpr ⟨hasName_of_getElem? hat, hshared⟩
  rw [previousName?, hline.sharedOrder_eq hafter,
    eraseDups_of_nodup (sharedOrder_nodup hafter before), atRankOf?, List.getElem?_idxOf hname]

/-! ## Details of a continued list -/

namespace Continues

theorem inLine (h : Continues comparator before after) : InLine before after := by
  intro position old hold
  obtain ⟨new, hat, hmeet, _⟩ := h.continued position old hold
  refine ⟨new, hat, hmeet.imp_right fun hboth => ?_⟩
  rw [hasName_eq_false_iff, hasName_eq_false_iff]
  exact hboth

/-- A parameter at an older position is kept at its rank or renames the older one. -/
theorem harmless_of_lt (h : Continues comparator before after)
    (hbefore : HasDistinctNames before) (hafter : HasDistinctNames after)
    (hat : after[position]? = some new) (hlt : position < before.length) :
    Harmless (pairingDetails comparator new position
      (pairingAt before after (previousName? before after new.name) position new.name)) := by
  have hold := List.getElem?_eq_getElem hlt
  obtain ⟨new', hat', hmeet, hrest⟩ := h.continued position _ hold
  cases hat.symm.trans hat'
  have hdetails : Harmless (parameterDetails comparator before[position] new position) :=
    harmless_parameterDetails_iff.mpr hrest
  rcases hmeet with hname | ⟨hunshared, hunshared'⟩
  · have hshared : hasName before new.name = true := hname ▸ hasName_of_getElem? hold
    rw [pairingAt_of_shared hbefore hafter hat (List.mem_of_getElem? hold) hname.symm,
      h.inLine.previousName?_eq_self hafter hat hshared, pairingDetails, reorderedDetails,
      if_pos rfl, List.nil_append]
    exact hdetails
  · rw [← hasName_eq_false_iff] at hunshared hunshared'
    rw [pairingAt_of_unpaired hunshared' hold hunshared, pairingDetails]
    exact List.forall_mem_cons.mpr ⟨rfl, hdetails⟩

/-- A parameter behind the older ones is added, is optional and shifts nothing. -/
theorem harmless_of_ge (h : Continues comparator before after) (hafter : HasDistinctNames after)
    (hat : after[position]? = some new) (hge : before.length ≤ position) :
    Harmless (pairingDetails comparator new position
      (pairingAt before after (previousName? before after new.name) position new.name)) := by
  have hunshared := h.inLine.unshared_behind hafter hat hge
  have hnothing : ∀ old, before[position]? = some old → hasName after old.name = true := by
    intro old hold
    rw [List.getElem?_eq_none hge] at hold
    cases hold
  have hshifts : ((after.drop (position + 1)).any fun p => hasName before p.name) = false := by
    refine List.any_eq_false.mpr fun later hlater => ?_
    obtain ⟨i, hi⟩ := List.mem_iff_getElem?.mp hlater
    rw [List.getElem?_drop] at hi
    rw [h.inLine.unshared_behind hafter hi (by omega)]
    exact Bool.false_ne_true
  rw [pairingAt_of_added hunshared hnothing, pairingDetails, hshifts, Bool.or_false,
    h.added_optional position new hat hge]
  exact List.forall_mem_singleton.mpr rfl

/-- An older parameter without a namesake is renamed at its position. -/
theorem nothingRemoved (h : Continues comparator before after) (hafter : HasDistinctNames after) :
    NothingRemoved before after := by
  intro position old hold
  rw [← Bool.not_eq_true, isRemovedAt_iff hafter]
  intro hremoved
  obtain ⟨hunshared, hkept⟩ := hremoved
  obtain ⟨new, hat, halike, _⟩ := h.inLine.exists_alike hold
  rw [hkept new hat, hunshared] at halike
  cases halike

end Continues

/-- A comparison of two lists of distinct names has no breaking detail exactly if the newer
list continues the older one. -/
theorem harmless_compareParameters_iff_continues (hbefore : HasDistinctNames before)
    (hafter : HasDistinctNames after) :
    Harmless (compareParameters comparator before after) ↔
      Continues comparator before after := by
  refine ⟨continues_of_harmless hbefore hafter, fun h => ?_⟩
  refine harmless_compareParameters_iff.mpr ⟨fun position new hat => ?_, h.nothingRemoved hafter⟩
  rcases Nat.lt_or_ge position before.length with hlt | hge
  · exact h.harmless_of_lt hbefore hafter hat hlt
  · exact h.harmless_of_ge hafter hat hge

/-! ## Main statement -/

/-- A comparison of two lists of distinct names breaks no callers exactly if the newer list
is not shorter, requires nothing behind the older parameters, and has at every older
position a parameter of the same name, or a new name in the place of one that is gone, whose
type is not narrower and which is required only where the older one is. -/
theorem compareParameters_harmless_iff_by_position (comparator : TypeComparator)
    (hbefore : HasDistinctNames before) (hafter : HasDistinctNames after) :
    (∀ d ∈ compareParameters comparator before after, d.breaking = false) ↔
      before.length ≤ after.length ∧
      (∀ (i : Nat) (new : Parameter), after[i]? = some new → before.length ≤ i →
        new.isRequired = false) ∧
      ∀ (i : Nat) (old new : Parameter), before[i]? = some old → after[i]? = some new →
        (old.name = new.name ∨
          old.name ∉ after.map Parameter.name ∧ new.name ∉ before.map Parameter.name) ∧
        comparator.relate old.type new.type ≠ .narrowed ∧
        (new.isRequired = true → old.isRequired = true) := by
  refine (harmless_compareParameters_iff_continues hbefore hafter).trans ⟨fun h => ?_, fun h => ?_⟩
  · refine ⟨h.length_le, h.added_optional, fun i old new hold hat => ?_⟩
    obtain ⟨new', hat', hmeet, hrest⟩ := h.continued i old hold
    cases hat.symm.trans hat'
    exact ⟨hmeet.imp_left Eq.symm, hrest⟩
  · obtain ⟨hlength, hoptional, hmeet⟩ := h
    refine ⟨fun i old hold => ?_, hoptional⟩
    obtain ⟨hlt, _⟩ := List.getElem?_eq_some_iff.mp hold
    have hat := List.getElem?_eq_getElem (Nat.lt_of_lt_of_le hlt hlength)
    obtain ⟨hname, hrest⟩ := hmeet i old _ hold hat
    exact ⟨_, hat, hname.imp_left Eq.symm, hrest⟩

/-- A parameter is renamed and widened, the next one is made optional and one that may be
left out follows.  The other way round in the list, the same two parameters break callers. -/
theorem compareParameters_harmless_iff_by_position_renamed :
    let before : List Parameter :=
      [{ name := "key", type := some { raw := "string" } }, { name := "limit" }]
    let after : List Parameter :=
      [{ name := "id", type := some { raw := "number | string" } },
        { name := "limit", isOptional := true }, { name := "strict", isOptional := true }]
    let swapped : List Parameter := before.reverse
    (HasDistinctNames before ∧ HasDistinctNames after ∧ HasDistinctNames swapped) ∧
      (∀ d ∈ compareParameters .heuristic before after, d.breaking = false) ∧
      ¬ ∀ d ∈ compareParameters .heuristic before swapped, d.breaking = false := by
  intro before after swapped
  have hbefore : HasDistinctNames before := by decide
  have hafter : HasDistinctNames after := by decide
  have hswapped : HasDistinctNames swapped := by decide
  refine ⟨⟨hbefore, hafter, hswapped⟩, ?_, fun h => ?_⟩
  · apply (compareParameters_harmless_iff_by_position .heuristic hbefore hafter).mpr
    refine ⟨by decide, fun i new hat hbehind => ?_, fun i old new hold hat => ?_⟩
    · match i, hbehind with
      | 2, _ =>
        cases hat
        rfl
      | i + 3, _ => cases hat
    · match i with
      | 0 =>
        cases hold
        cases hat
        decide +kernel
      | 1 =>
        cases hold
        cases hat
        decide +kernel
      | i + 2 => cases hold
  · obtain ⟨_, _, hmeet⟩ :=
      (compareParameters_harmless_iff_by_position .heuristic hbefore hswapped).mp h
    -- the first names differ, and each of them is in both lists
    have hfirst := (hmeet 0 _ _ rfl rfl).1
    revert hfirst
    decide

end ApiDrift.Signature
