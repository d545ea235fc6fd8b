import ApiDrift.Proofs.Signature.Partners
import ApiDrift.Signature.Compare
import Mathlib.Data.List.Sort
import Mathlib.Data.List.Zip

set_option autoImplicit false

/-!
# Where parameters differ

What a comparison reports of one kind stands at places that can be told without going
through it: the added parameters are those that a comparison the other way round would
remove, the renamed positions those at which neither list has a namesake of the other
one, and the reordered names those with another shared name at their rank.
-/

namespace ApiDrift

/-! ## Kinds of differences -/

/-- Whether a kind of difference is of a parameter. -/
def DetailKind.isAboutParameter : DetailKind → Bool
  | exportAdded | exportRemoved | returnTypeWidened | returnTypeNarrowed | returnTypeChanged
  | deprecated => false
  | _ => true

namespace Signature

variable {comparator : TypeComparator} {before after : List Parameter} {position : Nat}
  {old new : Parameter}

/-- Whether a kind of difference is between a parameter and the older one it stands
for. -/
def isAlteration : DetailKind → Bool
  | .parameterTypeWidened | .parameterTypeNarrowed | .parameterTypeChanged
  | .parameterMadeOptional | .parameterMadeRequired => true
  | _ => false

theorem isAboutParameter_of_isAlteration {kind : DetailKind} (h : isAlteration kind = true) :
    kind.isAboutParameter = true := by
  revert h
  cases kind <;> simp [isAlteration, DetailKind.isAboutParameter]

/-- The kinds of the differences between a parameter and the older one it stands for;
they do not depend on the position. -/
def alterations (comparator : TypeComparator) (old new : Parameter) : List DetailKind :=
  (parameterDetails comparator old new 0).map Detail.kind

theorem map_kind_parameterDetails (comparator : TypeComparator) (old new : Parameter)
    (position : Nat) :
    (parameterDetails comparator old new position).map Detail.kind =
      alterations comparator old new := by
  unfold alterations parameterDetails retypedDetails requirednessDetails
  cases (comparator.relate old.type new.type).shift? <;> cases old.isRequired <;>
    cases new.isRequired <;> rfl

theorem isAlteration_of_mem_alterations {kind : DetailKind}
    (h : kind ∈ alterations comparator old new) : isAlteration kind = true := by
  revert h
  unfold alterations parameterDetails retypedDetails requirednessDetails
  cases comparator.relate old.type new.type <;> cases old.isRequired <;>
    cases new.isRequired <;>
      simp +contextual [TypeRelation.shift?, Detail.kind, TypeShift.parameterKind, isAlteration,
        or_imp]

theorem mem_reorderedDetails_iff {name : String} {previous? : Option String} {d : Detail} :
    d ∈ reorderedDetails name position previous? ↔
      ∃ previous, previous? = some previous ∧ previous ≠ name ∧
        d = .parameterReordered name position previous := by
  cases previous? with
  | none => simp [reorderedDetails]
  | some previous => by_cases hsame : previous = name <;> simp [reorderedDetails, hsame]

/-- A return type makes at most one difference. -/
theorem exists_shift_of_mem_returnDetails {old new : Option TypeExpr} {d : Detail}
    (h : d ∈ returnDetails comparator old new) :
    ∃ shift, d = .returnRetyped shift (writtenText old) (writtenText new) := by
  unfold returnDetails at h
  split at h
  · rename_i shift _
    exact ⟨shift, List.mem_singleton.mp h⟩
  · cases h

theorem kind_of_mem_reorderedDetails {name : String} {previous : Option String} {d : Detail}
    (h : d ∈ reorderedDetails name position previous) : d.kind = .parameterReordered := by
  obtain ⟨_, _, _, rfl⟩ := mem_reorderedDetails_iff.mp h
  rfl

theorem isAlteration_of_mem_parameterDetails {d : Detail}
    (h : d ∈ parameterDetails comparator old new position) : isAlteration d.kind = true := by
  have hmem := List.mem_map_of_mem (f := Detail.kind) h
  rw [map_kind_parameterDetails] at hmem
  exact isAlteration_of_mem_alterations hmem

theorem not_mem_parameterDetails {d : Detail} (h : isAlteration d.kind = false) :
    d ∉ parameterDetails comparator old new position :=
  fun hd => Bool.eq_false_iff.mp h (isAlteration_of_mem_parameterDetails hd)

/-- A newer parameter makes alterations of the older one it stands for, it makes a reordering,
or it is reported as renamed or as added by what it stands for. -/
theorem cases_of_mem_pairingDetails {d : Detail} {pairing : Pairing}
    (h : d ∈ pairingDetails comparator new position pairing) :
    isAlteration d.kind = true ∨ d.kind = .parameterReordered ∨
      (∃ old, pairing = .renamed old ∧ d = .parameterRenamed position old.name new.name) ∨
      ∃ shifts, pairing = .added shifts ∧
        d = .parameterAdded new.name position (writtenText new.type)
          (new.isRequired || shifts) := by
  cases pairing with
  | kept old previous =>
    rcases List.mem_append.mp h with h | h
    · exact .inr (.inl (kind_of_mem_reorderedDetails h))
    · exact .inl (isAlteration_of_mem_parameterDetails h)
  | renamed old =>
    rcases List.mem_cons.mp h with rfl | h
    · exact .inr (.inr (.inl ⟨old, rfl, rfl⟩))
    · exact .inl (isAlteration_of_mem_parameterDetails h)
  | added shifts => exact .inr (.inr (.inr ⟨shifts, rfl, List.mem_singleton.mp h⟩))

/-- A difference that a newer parameter makes is no removal. -/
theorem kind_ne_removed_of_mem_pairingDetails {d : Detail} {pairing : Pairing}
    (h : d ∈ pairingDetails comparator new position pairing) : d.kind ≠ .parameterRemoved := by
  intro hremoved
  obtain haltered | hreordered | ⟨_, _, rfl⟩ | ⟨_, _, rfl⟩ := cases_of_mem_pairingDetails h
  · rw [hremoved] at haltered
    cases haltered
  · rw [hremoved] at hreordered
    cases hreordered
  · cases hremoved
  · cases hremoved

/-- A comparison of parameters finds differences of parameters. -/
theorem isAboutParameter_of_mem_compareParameters {d : Detail}
    (h : d ∈ compareParameters comparator before after) : d.kind.isAboutParameter = true := by
  rcases mem_compareParameters_iff.mp h with ⟨_, _, _, hd⟩ | ⟨_, _, _, _, rfl⟩
  · obtain haltered | hreordered | ⟨_, _, rfl⟩ | ⟨_, _, rfl⟩ := cases_of_mem_pairingDetails hd
    · exact isAboutParameter_of_isAlteration haltered
    · rw [hreordered]
      rfl
    · rfl
    · rfl
  · rfl

/-! ## Places of differences -/

/-- The parameters and positions of the details of a kind, in order. -/
def placesOf (kind : DetailKind) (details : List Detail) : List (Option String × Option Nat) :=
  (details.filter fun d => d.kind = kind).map fun d => (d.parameter?, d.position?)

/-- The place of a parameter at a position. -/
def place (p : Parameter × Nat) : Option String × Option Nat := (some p.1.name, some p.2)

theorem count_kind_eq_length_placesOf (kind : DetailKind) (details : List Detail) :
    (details.map Detail.kind).count kind = (placesOf kind details).length := by
  rw [placesOf, List.length_map, List.count, List.countP_map, List.countP_eq_length_filter]
  rfl

theorem placesOf_append (kind : DetailKind) (details details' : List Detail) :
    placesOf kind (details ++ details') = placesOf kind details ++ placesOf kind details' := by
  rw [placesOf, List.filter_append, List.map_append]
  rfl

theorem placesOf_eq_nil {kind : DetailKind} {details : List Detail}
    (h : ∀ d ∈ details, d.kind ≠ kind) : placesOf kind details = [] := by
  rw [placesOf, List.map_eq_nil_iff, List.filter_eq_nil_iff]
  exact fun d hd => by simpa using h d hd

theorem count_kind_eq_zero {kind : DetailKind} {details : List Detail}
    (h : ∀ d ∈ details, d.kind ≠ kind) : (details.map Detail.kind).count kind = 0 := by
  rw [count_kind_eq_length_placesOf, placesOf_eq_nil h, List.length_nil]

theorem placesOf_eq_map {kind : DetailKind} {details : List Detail}
    (h : ∀ d ∈ details, d.kind = kind) :
    placesOf kind details = details.map fun d => (d.parameter?, d.position?) := by
  rw [placesOf, List.filter_eq_self.mpr fun d hd => decide_eq_true (h d hd)]

theorem placesOf_parameterDetails {kind : DetailKind} (hkind : isAlteration kind = false) :
    placesOf kind (parameterDetails comparator old new position) = [] := by
  refine placesOf_eq_nil fun d hd hsame => ?_
  rw [← hsame, isAlteration_of_mem_parameterDetails hd] at hkind
  simp at hkind

/-- Elements that pass a test, each made into something. -/
theorem flatMap_ite_singleton {α β : Type} (l : List α) (test : α → Bool) (f : α → β) :
    (l.flatMap fun a => if test a then [f a] else []) = (l.filter test).map f := by
  induction l with
  | nil => rfl
  | cons a l ih =>
    rw [List.flatMap_cons, ih]
    cases htest : test a <;> simp [htest]

theorem placesOf_pairingDetails_kept {kind : DetailKind} (hkind : isAlteration kind = false)
    (previous : Option String) :
    placesOf kind (pairingDetails comparator new position (.kept old previous)) =
      placesOf kind (reorderedDetails new.name position previous) := by
  rw [pairingDetails, placesOf_append, placesOf_parameterDetails hkind, List.append_nil]

theorem placesOf_pairingDetails_renamed {kind : DetailKind} (hkind : isAlteration kind = false) :
    placesOf kind (pairingDetails comparator new position (.renamed old)) =
      placesOf kind [.parameterRenamed position old.name new.name] := by
  rw [pairingDetails, ← List.singleton_append, placesOf_append, placesOf_parameterDetails hkind,
    List.append_nil]

theorem placesOf_reorderedDetails (name : String) (position : Nat) (previous : Option String) :
    placesOf .parameterReordered (reorderedDetails name position previous) =
      if previous.any (· ≠ name) then [(some name, some position)] else [] := by
  cases previous with
  | none => rfl
  | some previous => by_cases hsame : previous = name <;> simp [reorderedDetails, hsame, placesOf,
      Detail.kind, Detail.parameter?, Detail.position?]

theorem placesOf_reorderedDetails_eq_nil {kind : DetailKind} (hkind : kind ≠ .parameterReordered)
    (name : String) (previous : Option String) :
    placesOf kind (reorderedDetails name position previous) = [] := by
  refine placesOf_eq_nil fun d hd hsame => hkind ?_
  rw [← hsame, kind_of_mem_reorderedDetails hd]

/-- A kind occurs where a test on the newer parameter and its position says, if it does so
for what is kept, what is renamed and what is added. -/
theorem placesOf_compareParameters {kind : DetailKind} {test : Parameter × Nat → Bool}
    (hbefore : HasDistinctNames before) (hafter : HasDistinctNames after)
    (hkind : kind ≠ .parameterRemoved) (halteration : isAlteration kind = false)
    (hkept : ∀ new position, after[position]? = some new → hasName before new.name = true →
      placesOf kind (reorderedDetails new.name position (previousName? before after new.name)) =
        if test (new, position) then [place (new, position)] else [])
    (hrenamed : ∀ old new position, before[position]? = some old → after[position]? = some new →
      hasName after old.name = false → hasName before new.name = false →
        placesOf kind [.parameterRenamed position old.name new.name] =
          if test (new, position) then [place (new, position)] else [])
    (hadded : ∀ new position shifts, after[position]? = some new →
      hasName before new.name = false →
      (∀ old, before[position]? = some old → hasName after old.name = true) →
        placesOf kind (pairingDetails comparator new position (.added shifts)) =
          if test (new, position) then [place (new, position)] else []) :
    placesOf kind (compareParameters comparator before after) =
      (after.zipIdx.filter test).map place := by
  have hremoved : placesOf kind ((removals before after).map fun p =>
      .parameterRemoved p.1.name p.2 (writtenText p.1.type)) = [] := by
    refine placesOf_eq_nil fun d hd => ?_
    obtain ⟨_, _, rfl⟩ := List.mem_map.mp hd
    exact hkind.symm
  rw [compareParameters_eq, placesOf_append, hremoved, List.append_nil, ← flatMap_ite_singleton,
    placesOf, List.filter_flatMap, List.map_flatMap, pairings, List.flatMap_map]
  refine List.flatMap_congr fun p hp => ?_
  obtain ⟨new, position⟩ := p
  have hat := List.mk_mem_zipIdx_iff_getElem?.mp hp
  change placesOf kind (pairingDetails comparator new position
    (pairingAt before after (previousName? before after new.name) position new.name)) = _
  obtain ⟨old, hold, hname, hpairing⟩ | ⟨hunshared, old, hold, hunpaired, hpairing⟩ |
    ⟨hunshared, hpaired, shifts, hpairing⟩ := pairingAt_cases hbefore hafter hat
      (previousName? before after new.name)
  · rw [hpairing, placesOf_pairingDetails_kept halteration]
    exact hkept new position hat (hasName_iff.mpr (List.mem_map.mpr ⟨old, hold, hname⟩))
  · rw [hpairing, placesOf_pairingDetails_renamed halteration]
    exact hrenamed old new position hold hat hunpaired hunshared
  · rw [hpairing]
    exact hadded new position shifts hat hunshared hpaired

/-- No parameter of the newer list is removed. -/
theorem placesOf_removed (comparator : TypeComparator) (before after : List Parameter) :
    placesOf .parameterRemoved (compareParameters comparator before after) =
      (removals before after).map place := by
  have hpairings : placesOf .parameterRemoved ((pairings before after).flatMap fun p =>
      pairingDetails comparator p.1 p.2.1 p.2.2) = [] := by
    refine placesOf_eq_nil fun d hd => ?_
    obtain ⟨_, _, hd⟩ := List.mem_flatMap.mp hd
    exact kind_ne_removed_of_mem_pairingDetails hd
  have hremovals : ∀ d ∈ (removals before after).map fun p =>
      Detail.parameterRemoved p.1.name p.2 (writtenText p.1.type), d.kind = .parameterRemoved := by
    intro d hd
    obtain ⟨_, _, rfl⟩ := List.mem_map.mp hd
    rfl
  rw [compareParameters_eq, placesOf_append, hpairings, List.nil_append, placesOf_eq_map hremovals,
    List.map_map]
  rfl

/-- The parameters that are added are those that would be removed the other way round. -/
theorem placesOf_added (hbefore : HasDistinctNames before) (hafter : HasDistinctNames after)
    (comparator : TypeComparator) :
    placesOf .parameterAdded (compareParameters comparator before after) =
      (removals after before).map place := by
  apply placesOf_compareParameters hbefore hafter (by decide) rfl
  · intro new position _ hshared
    have hstays : isRemovedAt after before position new = false := by simp [isRemovedAt, hshared]
    rw [placesOf_reorderedDetails_eq_nil (by decide), if_neg (Bool.eq_false_iff.mp hstays)]
  · intro old new position hold _ hunpaired _
    have hstays : ¬ isRemovedAt after before position new = true := by
      rw [isRemovedAt_iff hbefore]
      intro h
      rw [h.2 old hold] at hunpaired
      simp at hunpaired
    rw [if_neg hstays]
    rfl
  · intro new position shifts _ hunshared hpaired
    rw [if_pos ((isRemovedAt_iff hbefore).mpr ⟨hunshared, hpaired⟩)]
    rfl

/-! ## Renamed positions -/

/-- Whether neither list has a namesake of what the other one has at a position. -/
def isRenamedAt (before after : List Parameter) (position : Nat) : Bool :=
  (unpairedAt? before after position).isSome && (unpairedAt? after before position).isSome

theorem isRenamedAt_comm (before after : List Parameter) (position : Nat) :
    isRenamedAt before after position = isRenamedAt after before position :=
  Bool.and_comm _ _

theorem isRenamedAt_iff (hat : after[position]? = some new) :
    isRenamedAt before after position = true ↔
      hasName before new.name = false ∧
        ∃ old, before[position]? = some old ∧ hasName after old.name = false := by
  rw [isRenamedAt, Bool.and_eq_true, unpairedAt?_isSome_iff, unpairedAt?_isSome_iff, hat, and_comm]
  simp

/-- The renamed parameters are those at positions where neither list has a namesake. -/
theorem placesOf_renamed (hbefore : HasDistinctNames before) (hafter : HasDistinctNames after)
    (comparator : TypeComparator) :
    placesOf .parameterRenamed (compareParameters comparator before after) =
      (after.zipIdx.filter fun p => isRenamedAt before after p.2).map place := by
  apply placesOf_compareParameters hbefore hafter (by decide) rfl
  · intro new position hat hshared
    have hkept : ¬ isRenamedAt before after position = true := by
      rw [isRenamedAt_iff hat, hshared]
      simp
    rw [placesOf_reorderedDetails_eq_nil (by decide), if_neg hkept]
  · intro old new position hold hat hunpaired hunshared
    rw [if_pos ((isRenamedAt_iff hat).mpr ⟨hunshared, old, hold, hunpaired⟩)]
    rfl
  · intro new position shifts hat _ hpaired
    have hadded : ¬ isRenamedAt before after position = true := by
      rw [isRenamedAt_iff hat]
      rintro ⟨_, old, hold, hunpaired⟩
      rw [hpaired old hold] at hunpaired
      simp at hunpaired
    rw [if_neg hadded]
    rfl

theorem positions_renamed (hbefore : HasDistinctNames before) (hafter : HasDistinctNames after)
    (comparator : TypeComparator) :
    (placesOf .parameterRenamed (compareParameters comparator before after)).map Prod.snd =
      ((List.range after.length).filter (isRenamedAt before after)).map some := by
  -- the positions of the newer list with its parameters are a range
  rw [placesOf_renamed hbefore hafter, List.map_map, List.range_eq_range', ← List.zipIdx_map_snd,
    List.filter_map, List.map_map]
  rfl

theorem range_filter_isRenamedAt_swap (before after : List Parameter) :
    (List.range after.length).filter (isRenamedAt before after) =
      (List.range before.length).filter (isRenamedAt after before) := by
  have hlength : ∀ position, isRenamedAt before after position = true →
      (position < after.length ↔ position < before.length) := by
    intro position h
    rw [isRenamedAt, Bool.and_eq_true, unpairedAt?_isSome_iff, unpairedAt?_isSome_iff] at h
    obtain ⟨⟨old, hold, _⟩, new, hnew, _⟩ := h
    obtain ⟨hlt, _⟩ := List.getElem?_eq_some_iff.mp hold
    obtain ⟨hlt', _⟩ := List.getElem?_eq_some_iff.mp hnew
    exact iff_of_true hlt' hlt
  -- both sides are increasing, so it is enough that they have the same positions
  apply (List.pairwise_lt_range.filter _).eq_of_mem_iff (List.pairwise_lt_range.filter _)
  intro position
  rw [List.mem_filter, List.mem_filter, List.mem_range, List.mem_range,
    isRenamedAt_comm after before]
  exact and_congr_left fun h => hlength position h

theorem positions_renamed_swap (hbefore : HasDistinctNames before)
    (hafter : HasDistinctNames after) (comparator : TypeComparator) :
    (placesOf .parameterRenamed (compareParameters comparator before after)).map Prod.snd =
      (placesOf .parameterRenamed (compareParameters comparator after before)).map Prod.snd := by
  rw [positions_renamed hbefore hafter, positions_renamed hafter hbefore,
    range_filter_isRenamedAt_swap]

/-! ## Reordered names -/

/-- A test of every name against the one at its rank goes through the ranks of both
lists. -/
theorem countP_atRankOf? {older newer : List String} (hnodup : newer.Nodup)
    (hlength : older.length = newer.length) :
    (newer.countP fun name => (atRankOf? older newer name).any (· ≠ name)) =
      (newer.zip older).countP fun p => p.2 ≠ p.1 := by
  have hranks : newer.map (atRankOf? older newer) = older.map some := by
    refine List.ext_getElem (by simp [hlength]) fun i hi hi' => ?_
    rw [List.getElem_map, List.getElem_map, atRankOf?, hnodup.idxOf_getElem]
    exact List.getElem?_eq_getElem _
  calc (newer.countP fun name => (atRankOf? older newer name).any (· ≠ name))
      = (newer.map fun name => (name, atRankOf? older newer name)).countP
          fun p => p.2.any (· ≠ p.1) := by
        rw [List.countP_map]
        rfl
    _ = (newer.zip (older.map some)).countP fun p => p.2.any (· ≠ p.1) := by
        rw [List.map_prod_left_eq_zip, hranks]
    _ = (newer.zip older).countP fun p => p.2 ≠ p.1 := by
        rw [List.zip_map_right, List.countP_map]
        rfl

/-- A test of the shared names of a list goes through its parameters. -/
theorem countP_sharedOrder (parameters others : List Parameter) (test : String → Bool) :
    (sharedOrder parameters others).countP test =
      parameters.zipIdx.countP fun p => test p.1.name && hasName others p.1.name := by
  have hfst : parameters.zipIdx.map Prod.fst = parameters := List.zipIdx_map_fst 0 parameters
  conv => lhs; rw [sharedOrder, ← hfst, List.map_map, List.countP_filter, List.countP_map]
  rfl

/-- There are as many reordered parameters as ranks at which the two lists have different
shared names. -/
theorem length_placesOf_reordered (hbefore : HasDistinctNames before)
    (hafter : HasDistinctNames after) (comparator : TypeComparator) :
    (placesOf .parameterReordered (compareParameters comparator before after)).length =
      ((sharedOrder after before).zip (sharedOrder before after)).countP fun p => p.2 ≠ p.1 := by
  have hplaces : placesOf .parameterReordered (compareParameters comparator before after) =
      (after.zipIdx.filter fun p => (previousName? before after p.1.name).any (· ≠ p.1.name) &&
        hasName before p.1.name).map place := by
    apply placesOf_compareParameters hbefore hafter (by decide) rfl
    · intro new position _ hshared
      rw [placesOf_reorderedDetails, hshared, Bool.and_true]
      rfl
    · intro old new position _ _ _ hunshared
      rw [hunshared, Bool.and_false]
      rfl
    · intro new position shifts _ hunshared _
      rw [hunshared, Bool.and_false]
      rfl
  have hnodup := sharedOrder_nodup hafter before
  have hlength := (sharedOrder_perm hbefore hafter).length_eq
  rw [hplaces, List.length_map, ← List.countP_eq_length_filter, ← countP_atRankOf? hnodup hlength,
    countP_sharedOrder]
  simp only [previousName?, eraseDups_of_nodup hnodup]

theorem length_placesOf_reordered_swap (hbefore : HasDistinctNames before)
    (hafter : HasDistinctNames after) (comparator : TypeComparator) :
    (placesOf .parameterReordered (compareParameters comparator before after)).length =
      (placesOf .parameterReordered (compareParameters comparator after before)).length := by
  rw [length_placesOf_reordered hbefore hafter, length_placesOf_reordered hafter hbefore,
    ← List.zip_swap, List.countP_map]
  refine List.countP_congr fun p _ => ?_
  simp only [Function.comp_apply, Prod.fst_swap, Prod.snd_swap, decide_eq_true_eq]
  exact ne_comm

end Signature

end ApiDrift
