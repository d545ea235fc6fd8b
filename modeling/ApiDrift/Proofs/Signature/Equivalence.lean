import ApiDrift.Proofs.Signature.Continuation

set_option autoImplicit false

/-!
# Signatures without a difference

A comparison of two symbols with distinct parameter names finds nothing exactly if callers
cannot tell the signatures apart: the parameters have the same names in the same order, the
comparator takes all types to be the same, nothing has become optional or required, and the
newer symbol is not newly deprecated.  What a comparator takes to be the same is its own
affair, so a type need not be the same as itself here.
-/

namespace ApiDrift.Signature

variable {comparator : TypeComparator} {before after : List Parameter} {position : Nat}
  {old new : Parameter}

/-! ## Parts without a detail -/

theorem retypedDetails_eq_nil_iff :
    retypedDetails comparator old new position = [] ↔
      comparator.relate old.type new.type = .same := by
  unfold retypedDetails
  cases comparator.relate old.type new.type <;> simp [TypeRelation.shift?]

theorem requirednessDetails_eq_nil_iff :
    requirednessDetails old new position = [] ↔ old.isRequired = new.isRequired := by
  unfold requirednessDetails
  cases old.isRequired <;> cases new.isRequired <;> simp

theorem parameterDetails_eq_nil_iff :
    parameterDetails comparator old new position = [] ↔
      comparator.relate old.type new.type = .same ∧ old.isRequired = new.isRequired := by
  rw [parameterDetails, List.append_eq_nil_iff, retypedDetails_eq_nil_iff,
    requirednessDetails_eq_nil_iff]

theorem returnDetails_eq_nil_iff {old new : Option TypeExpr} :
    returnDetails comparator old new = [] ↔ comparator.relate old new = .same := by
  unfold returnDetails
  cases comparator.relate old new <;> simp [TypeRelation.shift?]

theorem deprecationDetails_eq_nil_iff {before after : Symbol} :
    deprecationDetails before after = [] ↔
      ¬ (after.isDeprecated = true ∧ before.isDeprecated = false) := by
  unfold deprecationDetails
  cases before.isDeprecated <;> cases after.isDeprecated <;> simp

/-! ## Parameters without a difference -/

/-- Two lists have the same names in the same order, and a parameter of the newer list has
the type and the requiredness of the older one at its position. -/
structure Alike (comparator : TypeComparator) (before after : List Parameter) : Prop where
  names : before.map Parameter.name = after.map Parameter.name
  parameters : ∀ (position : Nat) (old new : Parameter), before[position]? = some old →
    after[position]? = some new →
      comparator.relate old.type new.type = .same ∧ old.isRequired = new.isRequired

/-- In lists of the same names every parameter meets its namesake. -/
theorem InLine.of_names_eq (h : before.map Parameter.name = after.map Parameter.name) :
    InLine before after := by
  intro position old hold
  have hname := getElem?_name hold
  rw [h] at hname
  obtain ⟨new, hat, hname⟩ := getElem?_names_eq_some_iff.mp hname
  exact ⟨new, hat, .inl hname⟩

/-- A kept parameter makes no difference exactly if it has its own name at its rank and is
like the older one. -/
theorem pairingDetails_kept_eq_nil_iff {previous : Option String} :
    pairingDetails comparator new position (.kept old previous) = [] ↔
      reorderedDetails new.name position previous = [] ∧
        comparator.relate old.type new.type = .same ∧ old.isRequired = new.isRequired := by
  rw [pairingDetails, List.append_eq_nil_iff, parameterDetails_eq_nil_iff]

theorem Alike.compareParameters_eq_nil (h : Alike comparator before after)
    (hbefore : HasDistinctNames before) (hafter : HasDistinctNames after) :
    compareParameters comparator before after = [] := by
  have hline := InLine.of_names_eq h.names
  refine compareParameters_eq_nil_iff.mpr ⟨fun position new hat => ?_, fun position old hold => ?_⟩
  · have hname := getElem?_name hat
    rw [← h.names] at hname
    obtain ⟨old, hold, hname⟩ := getElem?_names_eq_some_iff.mp hname
    have hshared : hasName before new.name = true := hname ▸ hasName_of_getElem? hold
    rw [pairingAt_of_shared hbefore hafter hat (List.mem_of_getElem? hold) hname,
      hline.previousName?_eq_self hafter hat hshared, pairingDetails_kept_eq_nil_iff]
    exact ⟨if_pos rfl, h.parameters position old new hold hat⟩
  · have hshared : hasName after old.name = true := by
      rw [hasName_iff, ← h.names, ← hasName_iff]
      exact hasName_of_getElem? hold
    rw [isRemovedAt, hshared, Bool.not_true, Bool.false_and]

/-- Where a comparison finds nothing, no older parameter meets one of another name. -/
theorem names_eq_of_compareParameters_eq_nil (hbefore : HasDistinctNames before)
    (hafter : HasDistinctNames after) (h : compareParameters comparator before after = []) :
    before.map Parameter.name = after.map Parameter.name := by
  have hnothing := (compareParameters_eq_nil_iff.mp h).1
  have hharmless : Harmless (compareParameters comparator before after) := by
    rw [h]
    exact fun d hd => absurd hd List.not_mem_nil
  have hcontinues := continues_of_harmless hbefore hafter hharmless
  -- a parameter behind the older ones would be added
  have hlength : after.length ≤ before.length := by
    by_contra hlonger
    have hge : before.length ≤ before.length := Nat.le_refl _
    have hat := List.getElem?_eq_getElem (Nat.lt_of_not_le hlonger)
    have hunshared := hcontinues.inLine.unshared_behind hafter hat hge
    have hadded := hnothing before.length _ hat
    rw [pairingAt_of_added hunshared fun old hold => by simp at hold] at hadded
    simp [pairingDetails] at hadded
  refine List.ext_getElem? fun position => ?_
  cases hold : before[position]? with
  | none =>
    have hge := List.getElem?_eq_none_iff.mp hold
    rw [List.getElem?_map, hold, List.getElem?_map,
      List.getElem?_eq_none (Nat.le_trans hlength hge)]
  | some old =>
    obtain ⟨new, hat, hmeet⟩ := hcontinues.inLine position old hold
    rcases hmeet with hname | ⟨hunpaired, hunshared⟩
    · rw [getElem?_name hold, getElem?_name hat, hname]
    · have hrenamed := hnothing position new hat
      rw [pairingAt_of_unpaired hunshared hold hunpaired] at hrenamed
      simp [pairingDetails] at hrenamed

/-- A comparison of two lists of distinct names finds nothing exactly if they are alike. -/
theorem compareParameters_eq_nil_iff_alike (hbefore : HasDistinctNames before)
    (hafter : HasDistinctNames after) :
    compareParameters comparator before after = [] ↔ Alike comparator before after := by
  refine ⟨fun h => ?_, fun h => h.compareParameters_eq_nil hbefore hafter⟩
  have hnames := names_eq_of_compareParameters_eq_nil hbefore hafter h
  refine ⟨hnames, fun position old new hold hat => ?_⟩
  have hname : old.name = new.name := by
    have hsame := getElem?_name hold
    rw [hnames, getElem?_name hat] at hsame
    exact (Option.some.inj hsame).symm
  have hnothing := (compareParameters_eq_nil_iff.mp h).1 position new hat
  rw [pairingAt_of_shared hbefore hafter hat (List.mem_of_getElem? hold) hname,
    pairingDetails_kept_eq_nil_iff] at hnothing
  exact hnothing.2

/-! ## Symbols without a difference -/

/-- A comparison of two symbols finds nothing exactly if the signatures are equivalent: same
names in the same order, the same types to the comparator, the same parameters required, and
no new deprecation. -/
theorem compareSymbols_eq_nil_iff_alike (comparator : TypeComparator) {before after : Symbol}
    (hbefore : HasDistinctNames before.parameters) (hafter : HasDistinctNames after.parameters) :
    compareSymbols comparator before after = [] ↔
      Alike comparator before.parameters after.parameters ∧
      comparator.relate before.returnType after.returnType = .same ∧
      ¬ (after.isDeprecated = true ∧ before.isDeprecated = false) := by
  rw [compareSymbols, List.append_eq_nil_iff, List.append_eq_nil_iff, returnDetails_eq_nil_iff,
    deprecationDetails_eq_nil_iff, compareParameters_eq_nil_iff_alike hbefore hafter, and_assoc]

/-- A union that is spelt another way, a default value in place of an optional mark and a
deprecation that is withdrawn make no difference, but a member that the union loses does. -/
theorem compareSymbols_eq_nil_iff_alike_respelt :
    let before : Symbol :=
      { id := "#f", name := "f", deprecation := some {},
        parameters := [{ name := "a", type := some { raw := "A | B" } },
          { name := "b", isOptional := true }] }
    let after : Symbol :=
      { id := "#f", name := "f",
        parameters := [{ name := "a", type := some { raw := "B|A" } },
          { name := "b", defaultValue := some "" }] }
    let narrower : Symbol :=
      { id := "#f", name := "f",
        parameters := [{ name := "a", type := some { raw := "A" } },
          { name := "b", isOptional := true }] }
    (HasDistinctNames before.parameters ∧ HasDistinctNames after.parameters ∧
        HasDistinctNames narrower.parameters) ∧
      compareSymbols .heuristic before after = [] ∧
      compareSymbols .heuristic before narrower ≠ [] := by
  intro before after narrower
  have hbefore : HasDistinctNames before.parameters := by decide
  have hafter : HasDistinctNames after.parameters := by decide
  have hnarrower : HasDistinctNames narrower.parameters := by decide
  refine ⟨⟨hbefore, hafter, hnarrower⟩, ?_, fun h => ?_⟩
  · refine (compareSymbols_eq_nil_iff_alike .heuristic hbefore hafter).mpr ⟨⟨rfl, ?_⟩, rfl, ?_⟩
    · intro position old new hold hat
      match position with
      | 0 | 1 =>
        cases hold
        cases hat
        decide +kernel
      | _ + 2 => cases hold
    · decide
  · have halike := ((compareSymbols_eq_nil_iff_alike .heuristic hbefore hnarrower).mp h).1
    have htype := (halike.parameters 0 _ _ rfl rfl).1
    revert htype
    decide +kernel

end ApiDrift.Signature
