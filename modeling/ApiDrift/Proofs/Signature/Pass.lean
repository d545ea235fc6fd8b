import ApiDrift.Proofs.Signature.Pairing

set_option autoImplicit false

/-!
# Pairing in one pass

What the newer parameters stand for can be found in one pass through the newer list.  The
pass keeps the shared names that it has met and the older parameters without a namesake that
nothing stands for yet.  How many names it has met is the rank of the next one, and at that
rank it has to find a shared name in the older list.

It always does, however often either list repeats a name: the names that it has met and the
next one are distinct and shared, so the older list has more shared names than have been met.
What the pass is left with in the end are the pairings and the removals.
-/

namespace ApiDrift.Signature

variable {before after : List Parameter} {position : Nat} {old new : Parameter}

/-! ## The pass -/

/-- What a pass through a newer list keeps. -/
@[ext]
structure Pass where
  /-- The shared names that it has met. -/
  met : List String
  /-- The older parameters without a namesake that nothing stands for yet, with their positions. -/
  unpaired : List (Parameter × Nat)
  /-- What the newer parameters stand for, up to here. -/
  paired : List (Parameter × Nat × Pairing)

namespace Pass

/-- Ahead of the first parameter no name is met, and all older parameters without a namesake
wait. -/
def start (before after : List Parameter) : Pass where
  met := []
  unpaired := before.zipIdx.filter fun p => !hasName after p.1.name
  paired := []

/-- The older parameter that the next newer one keeps: its namesake, if its name has not been
met. -/
def kept? (before : List Parameter) (pass : Pass) (name : String) : Option Parameter :=
  if name ∈ pass.met then none else lastNamed? before name

/-- The older parameter that waits at a position for a newer one. -/
def waitingAt? (pass : Pass) (position : Nat) : Option Parameter :=
  (pass.unpaired.find? fun p => p.2 = position).map Prod.fst

/-- A pass takes in the next newer parameter.  It cannot go on if it keeps the parameter and
the older list has no shared name at the rank of its name. -/
def step (before after : List Parameter) (pass : Pass) : Parameter × Nat → Option Pass
  | (new, position) =>
    match pass.kept? before new.name with
    | some old =>
      (sharedOrder before after)[pass.met.length]?.map fun previous =>
        { pass with
          met := pass.met ++ [new.name]
          paired := pass.paired ++ [(new, position, .kept old (some previous))] }
    | none =>
      match pass.waitingAt? position with
      | some old =>
        some { pass with
          unpaired := pass.unpaired.filter fun p => p.2 ≠ position
          paired := pass.paired ++ [(new, position, .renamed old)] }
      | none =>
        let shifts := (after.drop (position + 1)).any fun p => hasName before p.name
        some { pass with paired := pass.paired ++ [(new, position, .added shifts)] }

/-- The pass that comes to a position, if it does not get stuck ahead of it. -/
def upTo (before after : List Parameter) (position : Nat) : Option Pass :=
  (after.zipIdx.take position).foldlM (step before after) (start before after)

/-! ## What a pass has come to -/

/-- What a pass keeps when it comes to a position: the distinct shared names ahead of it, the
older parameters that still wait or are removed, and the pairings ahead of it. -/
def reached (before after : List Parameter) (position : Nat) : Pass where
  met := (sharedOrder (after.take position) before).eraseDups
  unpaired := before.zipIdx.filter fun p =>
    (decide (position ≤ p.2) && !hasName after p.1.name) || isRemovedAt before after p.2 p.1
  paired := (pairings before after).take position

/-! ### Names that it has met -/

theorem mem_met_reached_iff {name : String} :
    name ∈ (reached before after position).met ↔
      hasName (after.take position) name = true ∧ hasName before name = true := by
  rw [reached, List.mem_eraseDups, mem_sharedOrder_iff]

theorem met_reached_nodup : (reached before after position).met.Nodup :=
  eraseDups_nodup _

theorem kept?_reached (name : String) :
    (reached before after position).kept? before name = keptAt? before after position name := by
  cases hold : lastNamed? before name with
  | none => rw [kept?, keptAt?, hold, ite_self, ite_self]
  | some old =>
    have hshared : hasName before name = true := by
      rw [← Bool.not_eq_false, ← lastNamed?_eq_none_iff, hold]
      exact Option.some_ne_none old
    simp only [kept?, keptAt?, mem_met_reached_iff, hshared, and_true]

/-- A parameter that is kept is of a shared name which has not been met. -/
theorem met_reached_succ_of_kept (hat : after[position]? = some new)
    (hkept : (keptAt? before after position new.name).isSome = true) :
    (reached before after (position + 1)).met =
      (reached before after position).met ++ [new.name] := by
  obtain ⟨hahead, hshared⟩ := keptAt?_isSome_iff.mp hkept
  have hfresh : new.name ∉ sharedOrder (after.take position) before := by
    rw [mem_sharedOrder_iff, hahead]
    simp
  rw [reached, sharedOrder_take_succ hat, List.filter_cons_of_pos hshared, List.filter_nil,
    eraseDups_concat_of_not_mem hfresh, reached]

/-- Any other one is of a name which has been met or is not shared. -/
theorem met_reached_succ_of_not_kept (hat : after[position]? = some new)
    (hkept : keptAt? before after position new.name = none) :
    (reached before after (position + 1)).met = (reached before after position).met := by
  have hknown : [new.name].filter (hasName before) ⊆ sharedOrder (after.take position) before := by
    intro name hname
    obtain ⟨hname, hshared⟩ := List.mem_filter.mp hname
    rw [List.mem_singleton.mp hname] at hshared ⊢
    refine mem_sharedOrder_iff.mpr ⟨?_, hshared⟩
    by_contra hahead
    have hfirst := keptAt?_isSome_iff.mpr ⟨Bool.eq_false_iff.mpr hahead, hshared⟩
    rw [hkept] at hfirst
    exact absurd hfirst Bool.false_ne_true
  rw [reached, sharedOrder_take_succ hat, eraseDups_append_of_subset hknown, reached]

/-! ### Ranks -/

theorem met_reached_prefix (before after : List Parameter) (position : Nat) :
    (reached before after position).met <+: (sharedOrder after before).eraseDups :=
  prefix_eraseDups (((List.take_prefix position after).map _).filter _)

/-- As many names have been met as the rank of one that is kept says. -/
theorem idxOf_eq_length_met (hat : after[position]? = some new)
    (hkept : (keptAt? before after position new.name).isSome = true) :
    (sharedOrder after before).eraseDups.idxOf new.name =
      (reached before after position).met.length := by
  have hfresh : new.name ∉ (reached before after position).met := by
    rw [mem_met_reached_iff, (keptAt?_isSome_iff.mp hkept).1]
    simp
  obtain ⟨rest, hrest⟩ := met_reached_prefix before after (position + 1)
  rw [met_reached_succ_of_kept hat hkept, List.append_assoc] at hrest
  rw [← hrest, List.idxOf_append_of_notMem hfresh, List.singleton_append, List.idxOf_cons_self,
    Nat.add_zero]

/-- Where a parameter is kept, the older list has more shared names than have been met. -/
theorem length_met_lt (hat : after[position]? = some new)
    (hkept : (keptAt? before after position new.name).isSome = true) :
    (reached before after position).met.length < (sharedOrder before after).length := by
  rw [← idxOf_eq_length_met hat hkept]
  exact idxOf_lt_length_sharedOrder (keptAt?_isSome_iff.mp hkept).2 (hasName_of_getElem? hat)

theorem previousName?_eq_getElem? (hat : after[position]? = some new)
    (hkept : (keptAt? before after position new.name).isSome = true) :
    previousName? before after new.name =
      (sharedOrder before after)[(reached before after position).met.length]? := by
  rw [previousName?, atRankOf?, idxOf_eq_length_met hat hkept]

/-! ### Parameters that wait -/

theorem mem_unpaired_reached_iff :
    (old, position) ∈ (reached before after position).unpaired ↔
      before[position]? = some old ∧ hasName after old.name = false := by
  rw [reached, List.mem_filter, List.mk_mem_zipIdx_iff_getElem?, Bool.or_eq_true, Bool.and_eq_true,
    Bool.not_eq_true']
  refine and_congr_right fun _ => ⟨?_, fun hunpaired => .inl ⟨by simp, hunpaired⟩⟩
  rintro (⟨_, hunpaired⟩ | hremoved)
  · exact hunpaired
  · exact hasName_eq_false_of_isRemovedAt hremoved

/-- No two older parameters wait at one position. -/
theorem position_unpaired_nodup (before after : List Parameter) (position : Nat) :
    ((reached before after position).unpaired.map Prod.snd).Nodup := by
  have hpositions : (before.zipIdx.map Prod.snd).Nodup := by
    rw [List.zipIdx_map_snd]
    exact List.nodup_range'
  exact hpositions.sublist (List.filter_sublist.map _)

theorem waitingAt?_reached (before after : List Parameter) (position : Nat) :
    (reached before after position).waitingAt? position = unpairedAt? before after position := by
  have hnodup := position_unpaired_nodup before after position
  ext old
  have hold : unpairedAt? before after position = some old ↔
      (old, position) ∈ (reached before after position).unpaired := by
    rw [mem_unpaired_reached_iff, unpairedAt?, Option.filter_eq_some_iff, Bool.not_eq_true']
  rw [hold, waitingAt?, Option.map_eq_some_iff]
  constructor
  · rintro ⟨⟨_, _⟩, hfound, rfl⟩
    obtain ⟨hmem, rfl⟩ := (Keyed.find?_eq_some_iff hnodup).mp hfound
    exact hmem
  · intro hmem
    exact ⟨(old, position), (Keyed.find?_eq_some_iff hnodup).mpr ⟨hmem, rfl⟩, rfl⟩

/-- From one position to the next only the parameter at it stops waiting, unless the newer one
there is kept. -/
theorem unpaired_reached_succ (hat : after[position]? = some new) :
    (reached before after (position + 1)).unpaired =
      (reached before after position).unpaired.filter fun p =>
        decide (p.2 ≠ position) || (keptAt? before after position new.name).isSome := by
  rw [reached, reached, List.filter_filter]
  refine List.filter_congr fun p _ => ?_
  by_cases hhere : p.2 = position
  · rw [hhere, isRemovedAt, hat]
    have hpast := Nat.not_succ_le_self position
    cases hasName after p.1.name <;> simp [hpast]
  · have hlater : position + 1 ≤ p.2 ↔ position ≤ p.2 := by omega
    simp [hhere, hlater]

theorem unpaired_reached_succ_of_kept (hat : after[position]? = some new)
    (hkept : (keptAt? before after position new.name).isSome = true) :
    (reached before after (position + 1)).unpaired = (reached before after position).unpaired := by
  rw [unpaired_reached_succ hat, hkept]
  simp

theorem unpaired_reached_succ_of_not_kept (hat : after[position]? = some new)
    (hkept : keptAt? before after position new.name = none) :
    (reached before after (position + 1)).unpaired =
      (reached before after position).unpaired.filter fun p => p.2 ≠ position := by
  rw [unpaired_reached_succ hat, hkept]
  simp

/-- Where nothing waits there is nothing to take away. -/
theorem filter_unpaired_of_not_waiting {pass : Pass} (h : pass.waitingAt? position = none) :
    (pass.unpaired.filter fun p => p.2 ≠ position) = pass.unpaired := by
  rw [waitingAt?, Option.map_eq_none_iff, List.find?_eq_none] at h
  exact List.filter_eq_self.mpr fun p hp => by simpa using h p hp

/-! ### Pairings -/

theorem paired_reached_succ (hat : after[position]? = some new) :
    (reached before after (position + 1)).paired =
      (reached before after position).paired ++ [(new, position,
        pairingAt before after (previousName? before after new.name) position new.name)] := by
  change (pairings before after).take (position + 1) = (pairings before after).take position ++ _
  rw [List.take_add_one, getElem?_pairings hat, Option.toList_some]

/-! ## Steps -/

theorem reached_zero (before after : List Parameter) :
    reached before after 0 = start before after := by
  refine Pass.ext rfl (List.filter_congr fun p _ => ?_) rfl
  cases hshared : hasName after p.1.name <;> simp [isRemovedAt, hshared]

/-- A pass does not get stuck at a parameter that it keeps. -/
theorem step_reached_of_kept (hat : after[position]? = some new)
    (hkept : keptAt? before after position new.name = some old) :
    (reached before after position).step before after (new, position) =
      some (reached before after (position + 1)) := by
  have hsome : (keptAt? before after position new.name).isSome = true :=
    Option.isSome_of_eq_some hkept
  have hrank := List.getElem?_eq_getElem (length_met_lt hat hsome)
  rw [step, kept?_reached, hkept, hrank]
  refine congrArg some (Pass.ext ?_ ?_ ?_)
  · exact (met_reached_succ_of_kept hat hsome).symm
  · exact (unpaired_reached_succ_of_kept hat hsome).symm
  · rw [paired_reached_succ hat, pairingAt, hkept, previousName?_eq_getElem? hat hsome, hrank]

theorem step_reached_of_not_kept (hat : after[position]? = some new)
    (hkept : keptAt? before after position new.name = none) :
    (reached before after position).step before after (new, position) =
      some (reached before after (position + 1)) := by
  have hmet := (met_reached_succ_of_not_kept hat hkept).symm
  have hunpaired := (unpaired_reached_succ_of_not_kept hat hkept).symm
  have hwaiting := waitingAt?_reached before after position
  rw [step, kept?_reached, hkept]
  cases hold : unpairedAt? before after position with
  | some old =>
    rw [hold] at hwaiting
    rw [hwaiting]
    refine congrArg some (Pass.ext hmet hunpaired ?_)
    rw [paired_reached_succ hat, pairingAt, hkept, hold]
  | none =>
    rw [hold] at hwaiting
    rw [hwaiting]
    rw [filter_unpaired_of_not_waiting hwaiting] at hunpaired
    refine congrArg some (Pass.ext hmet hunpaired ?_)
    rw [paired_reached_succ hat, pairingAt, hkept, hold]

theorem step_reached (hat : after[position]? = some new) :
    (reached before after position).step before after (new, position) =
      some (reached before after (position + 1)) := by
  cases hkept : keptAt? before after position new.name with
  | some old => exact step_reached_of_kept hat hkept
  | none => exact step_reached_of_not_kept hat hkept

/-! ## Runs -/

/-- A pass comes to every position of the newer list. -/
theorem upTo_eq_reached (h : position ≤ after.length) :
    upTo before after position = some (reached before after position) := by
  -- what is reached at a position says all that the next step depends on
  induction position with
  | zero =>
    rw [reached_zero, upTo, List.take_zero]
    rfl
  | succ position ih =>
    have hat := List.getElem?_eq_getElem (Nat.lt_of_succ_le h)
    have hnext : after.zipIdx[position]? = some (after[position], position) := by
      rw [List.getElem?_zipIdx, hat, Nat.zero_add]
      rfl
    have hhere := ih (Nat.le_of_succ_le h)
    rw [upTo] at hhere
    rw [upTo, List.take_add_one, hnext, Option.toList_some, List.foldlM_append, hhere,
      Option.bind_eq_bind, Option.bind_some, List.foldlM_cons, step_reached hat]
    rfl

/-- Behind the last parameter the ones that still wait are removed. -/
theorem unpaired_reached_length (before after : List Parameter) :
    (reached before after after.length).unpaired = removals before after := by
  refine List.filter_congr fun p _ => ?_
  by_cases hbehind : after.length ≤ p.2
  · simp [isRemovedAt, List.getElem?_eq_none hbehind]
  · simp [hbehind]

theorem paired_reached_length (before after : List Parameter) :
    (reached before after after.length).paired = pairings before after := by
  refine List.take_of_length_le ?_
  simp [pairings]

end Pass

/-- A pass through the newer list never asks for a rank that the older list does not have,
whatever names the lists repeat.  It comes to every position, and where it keeps a parameter
the older list has more shared names than the pass has met: the one at that rank is the one
which the pairing names.  The pass ends with the pairings and the removals. -/
theorem pass_stays_in_range (before after : List Parameter) :
    (∀ (position : Nat) (new : Parameter), after[position]? = some new →
      ∃ pass, Pass.upTo before after position = some pass ∧ pass.met.Nodup ∧
        ∀ old, pass.kept? before new.name = some old →
          ∃ hrank : pass.met.length < (sharedOrder before after).length,
            (new, position, .kept old (some (sharedOrder before after)[pass.met.length])) ∈
              pairings before after) ∧
    ∃ last, Pass.upTo before after after.length = some last ∧
      last.paired = pairings before after ∧ last.unpaired = removals before after := by
  constructor
  · intro position new hat
    obtain ⟨hlt, _⟩ := List.getElem?_eq_some_iff.mp hat
    refine ⟨_, Pass.upTo_eq_reached (Nat.le_of_lt hlt), Pass.met_reached_nodup, fun old hold => ?_⟩
    rw [Pass.kept?_reached] at hold
    have hkept := Option.isSome_of_eq_some hold
    have hrank := Pass.length_met_lt hat hkept
    refine ⟨hrank, mem_pairings_iff.mpr ⟨hat, ?_⟩⟩
    rw [pairingAt, hold, Pass.previousName?_eq_getElem? hat hkept, List.getElem?_eq_getElem hrank]
  · exact ⟨_, Pass.upTo_eq_reached (Nat.le_refl _), Pass.paired_reached_length before after,
      Pass.unpaired_reached_length before after⟩

/-- Both lists repeat the name that is kept, and the newer one repeats another one ahead of it. -/
theorem pass_stays_in_range_repeated :
    let before : List Parameter :=
      [{ name := "a" }, { name := "b" }, { name := "a" }, { name := "gone" }]
    let after : List Parameter :=
      [{ name := "b" }, { name := "x" }, { name := "b" }, { name := "a" }, { name := "a" }]
    after[3]? = some { name := "a" } ∧ sharedOrder before after = ["a", "b", "a"] ∧
      ∃ pass, Pass.upTo before after 3 = some pass ∧ pass.met = ["b"] ∧
        pass.kept? before "a" = some { name := "a" } ∧
        pass.met.length < (sharedOrder before after).length ∧
        ({ name := "a" }, 3, .kept { name := "a" } (some "b")) ∈ pairings before after := by
  intro before after
  have hat : after[3]? = some { name := "a" } := rfl
  have horder : sharedOrder before after = ["a", "b", "a"] := by decide +kernel
  obtain ⟨pass, hpass, _, hrange⟩ := (pass_stays_in_range before after).1 3 _ hat
  have hmet : pass.met = ["b"] := by
    have hreached : (Pass.upTo before after 3).map Pass.met = some ["b"] := by decide +kernel
    rw [hpass] at hreached
    exact Option.some.inj hreached
  have hkept : pass.kept? before "a" = some { name := "a" } := by
    rw [Pass.kept?, hmet]
    rfl
  obtain ⟨hrank, hpairing⟩ := hrange _ hkept
  simp only [horder, hmet] at hpairing
  exact ⟨hat, horder, pass, hpass, hmet, hkept, hrank, hpairing⟩

end ApiDrift.Signature
