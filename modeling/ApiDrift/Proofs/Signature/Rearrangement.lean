import ApiDrift.Proofs.Signature.Places

set_option autoImplicit false

/-!
# Which names a comparison reports as reordered

The shared names of two lists of distinct names are the same but for their order, and a name
is reordered if another one stands at its rank in the older list.  So no name is reordered
exactly if any two shared names stand in one order in both lists, and the names that move
are the names that they move to.  One name alone cannot move.
-/

namespace ApiDrift.Signature

variable {comparator : TypeComparator} {before after : List Parameter} {d : Detail}

/-! ## Relative order -/

/-- A name first stands ahead of another one in a list. -/
def StandsAhead (parameters : List Parameter) (name other : String) : Prop :=
  firstPosition parameters name < firstPosition parameters other

/-- Any two names that both lists have stand in one order in the two lists. -/
def SameRelativeOrder (before after : List Parameter) : Prop :=
  ∀ name other : String,
    hasName before name = true → hasName after name = true →
    hasName before other = true → hasName after other = true →
      (StandsAhead before name other ↔ StandsAhead after name other)

/-- The shared names of a list come in the order in which they stand in the list. -/
theorem sharedOrder_pairwise (h : HasDistinctNames before) (after : List Parameter) :
    (sharedOrder before after).Pairwise (StandsAhead before) :=
  (pairwise_idxOf_lt h).filter _

theorem sharedOrder_eq_iff_sameRelativeOrder (hbefore : HasDistinctNames before)
    (hafter : HasDistinctNames after) :
    sharedOrder before after = sharedOrder after before ↔ SameRelativeOrder before after := by
  have holder := sharedOrder_pairwise hbefore after
  have hnewer := sharedOrder_pairwise hafter before
  constructor
  · intro hsame name other hname hname' hother hother'
    rw [← hsame] at hnewer
    have hboth := holder.and hnewer
    -- of two names in one list one comes first, and then it does so in both lists
    have hahead := hboth.imp fun h => iff_of_true h.1 h.2
    have hbehind := hboth.imp fun h => iff_of_false (Nat.lt_asymm h.1) (Nat.lt_asymm h.2)
    have hself : ∀ name ∈ sharedOrder before after,
        (StandsAhead before name name ↔ StandsAhead after name name) :=
      fun _ _ => iff_of_false (Nat.lt_irrefl _) (Nat.lt_irrefl _)
    exact hahead.forall_of_forall_of_flip hself hbehind (mem_sharedOrder_iff.mpr ⟨hname, hname'⟩)
      (mem_sharedOrder_iff.mpr ⟨hother, hother'⟩)
  · intro horder
    have hnewer' : (sharedOrder after before).Pairwise (StandsAhead before) := by
      refine hnewer.imp_of_mem fun hname hother hahead => ?_
      obtain ⟨hname', hname⟩ := mem_sharedOrder_iff.mp hname
      obtain ⟨hother', hother⟩ := mem_sharedOrder_iff.mp hother
      exact (horder _ _ hname hname' hother hother').mpr hahead
    have : Std.Asymm (StandsAhead before) := ⟨fun _ _ => Nat.lt_asymm⟩
    refine holder.eq_of_mem_iff hnewer' fun name => ?_
    rw [mem_sharedOrder_iff, mem_sharedOrder_iff, and_comm]

/-! ## Elements that change places -/

/-- In a rearrangement the place that an element leaves is taken by another one. -/
theorem exists_moved_of_moved {older newer : List String} (hperm : older.Perm newer)
    (hnodup : newer.Nodup) {rank : Nat} {name previous : String} (hnew : newer[rank]? = some name)
    (hold : older[rank]? = some previous) (hmoved : previous ≠ name) :
    ∃ (rank' : Nat) (name' : String), newer[rank']? = some name' ∧ older[rank']? = some name ∧
      name ≠ name' := by
  obtain ⟨rank', hold'⟩ := List.mem_iff_getElem?.mp (hperm.mem_iff.mpr (List.mem_of_getElem? hnew))
  obtain ⟨hlt, _⟩ := List.getElem?_eq_some_iff.mp hold'
  have hnew' := List.getElem?_eq_getElem (hperm.length_eq ▸ hlt)
  refine ⟨rank', _, hnew', hold', fun hsame => hmoved ?_⟩
  -- a name that keeps its place has no other one
  rw [← hsame, ← hnew] at hnew'
  have hrank := (List.getElem?_inj (hperm.length_eq ▸ hlt) hnodup).mp hnew'
  rw [hrank, hold] at hold'
  exact Option.some.inj hold'

/-! ## Details of a reordering -/

/-- The details of a reordering. -/
def reorderings (details : List Detail) : List Detail :=
  details.filter fun d => d.kind = .parameterReordered

theorem mem_reorderings_iff {details : List Detail} :
    d ∈ reorderings details ↔
      ∃ name position previous, d = .parameterReordered name position previous ∧ d ∈ details := by
  rw [reorderings, List.mem_filter, decide_eq_true_iff]
  constructor
  · rintro ⟨hd, hkind⟩
    cases d with
    | parameterReordered name position previous => exact ⟨name, position, previous, rfl, hd⟩
    | parameterRetyped _ _ shift | returnRetyped shift => cases shift <;> cases hkind
    | _ => cases hkind
  · rintro ⟨_, _, _, rfl, hd⟩
    exact ⟨hd, rfl⟩

/-- A parameter is reported as reordered if another shared name stands at its rank. -/
theorem reordered_mem_compareParameters_iff (hbefore : HasDistinctNames before)
    (hafter : HasDistinctNames after) {name previous : String} {position : Nat} :
    .parameterReordered name position previous ∈ compareParameters comparator before after ↔
      ∃ new, after[position]? = some new ∧ new.name = name ∧ hasName before name = true ∧
        previousName? before after name = some previous ∧ previous ≠ name := by
  rw [mem_compareParameters_iff]
  constructor
  · rintro (⟨position', new, hat, hd⟩ | ⟨_, _, _, _, ⟨⟩⟩)
    obtain ⟨old, hold, hname, hpairing⟩ | ⟨_, old, _, _, hpairing⟩ | ⟨_, _, _, hpairing⟩ :=
      pairingAt_cases hbefore hafter hat (previousName? before after new.name)
    · rw [hpairing] at hd
      rcases List.mem_append.mp hd with hreordered | haltered
      · obtain ⟨_, hprevious, hmoved, ⟨⟩⟩ := mem_reorderedDetails_iff.mp hreordered
        have hshared : hasName before new.name = true :=
          hasName_iff.mpr (List.mem_map.mpr ⟨old, hold, hname⟩)
        exact ⟨new, hat, rfl, hshared, hprevious, hmoved⟩
      · exact absurd haltered (not_mem_parameterDetails rfl)
    · rw [hpairing] at hd
      rcases List.mem_cons.mp hd with hrenamed | haltered
      · cases hrenamed
      · exact absurd haltered (not_mem_parameterDetails rfl)
    · rw [hpairing] at hd
      cases List.mem_singleton.mp hd
  · rintro ⟨new, hat, rfl, hshared, hprevious, hmoved⟩
    obtain ⟨old, hold, hname⟩ := List.mem_map.mp (hasName_iff.mp hshared)
    refine .inl ⟨position, new, hat, ?_⟩
    rw [pairingAt_of_shared hbefore hafter hat hold hname]
    exact List.mem_append_left _ (mem_reorderedDetails_iff.mpr ⟨previous, hprevious, hmoved, rfl⟩)

/-! ## Names that move -/

/-- A name has come to the place of another one: they stand at one rank of the shared
names. -/
def Moves (before after : List Parameter) (previous name : String) : Prop :=
  ∃ rank : Nat, (sharedOrder after before)[rank]? = some name ∧
    (sharedOrder before after)[rank]? = some previous ∧ previous ≠ name

theorem exists_reordered_iff_moves (hbefore : HasDistinctNames before)
    (hafter : HasDistinctNames after) {name previous : String} :
    (∃ position, .parameterReordered name position previous ∈
        compareParameters comparator before after) ↔ Moves before after previous name := by
  have hnodup := sharedOrder_nodup hafter before
  simp only [reordered_mem_compareParameters_iff hbefore hafter, previousName?, atRankOf?,
    eraseDups_of_nodup hnodup]
  constructor
  · rintro ⟨position, new, hat, rfl, hshared, hprevious, hmoved⟩
    have hmem : new.name ∈ sharedOrder after before :=
      mem_sharedOrder_iff.mpr ⟨hasName_of_getElem? hat, hshared⟩
    exact ⟨_, List.getElem?_idxOf hmem, hprevious, hmoved⟩
  · rintro ⟨rank, hname, hprevious, hmoved⟩
    obtain ⟨hin, hshared⟩ := mem_sharedOrder_iff.mp (List.mem_of_getElem? hname)
    obtain ⟨new, hnew, rfl⟩ := List.mem_map.mp (hasName_iff.mp hin)
    obtain ⟨position, hat⟩ := List.mem_iff_getElem?.mp hnew
    obtain ⟨hlt, hrank⟩ := List.getElem?_eq_some_iff.mp hname
    refine ⟨position, new, hat, rfl, hshared, ?_, hmoved⟩
    rw [← hrank, hnodup.idxOf_getElem, hprevious]

/-- The reorderings of a comparison are of the names that move. -/
theorem exists_moves_of_mem_reorderings (hbefore : HasDistinctNames before)
    (hafter : HasDistinctNames after)
    (h : d ∈ reorderings (compareParameters comparator before after)) :
    ∃ name previous, Moves before after previous name ∧
      d.after? = some name ∧ d.before? = some previous := by
  obtain ⟨name, position, previous, rfl, hd⟩ := mem_reorderings_iff.mp h
  exact ⟨name, previous, (exists_reordered_iff_moves hbefore hafter).mp ⟨position, hd⟩, rfl, rfl⟩

theorem Moves.exists_mem_reorderings (hbefore : HasDistinctNames before)
    (hafter : HasDistinctNames after) {name previous : String}
    (h : Moves before after previous name) (comparator : TypeComparator) :
    ∃ d ∈ reorderings (compareParameters comparator before after),
      d.after? = some name ∧ d.before? = some previous := by
  obtain ⟨position, hd⟩ := (exists_reordered_iff_moves hbefore hafter).mpr h
  exact ⟨_, mem_reorderings_iff.mpr ⟨name, position, previous, rfl, hd⟩, rfl, rfl⟩

/-- No name moves exactly if the shared names have one order. -/
theorem sharedOrder_eq_iff_not_moves (hbefore : HasDistinctNames before)
    (hafter : HasDistinctNames after) :
    sharedOrder before after = sharedOrder after before ↔
      ∀ previous name, ¬ Moves before after previous name := by
  have hlength := (sharedOrder_perm hbefore hafter).length_eq
  constructor
  · rintro hsame previous name ⟨rank, hname, hprevious, hmoved⟩
    rw [hsame, hname] at hprevious
    exact hmoved (Option.some.inj hprevious).symm
  · intro hstill
    refine List.ext_getElem hlength fun rank hold hnew => ?_
    by_contra hmoved
    exact hstill _ _ ⟨rank, List.getElem?_eq_getElem hnew, List.getElem?_eq_getElem hold, hmoved⟩

/-- The place that a name leaves is taken by another one. -/
theorem exists_moves_iff (hbefore : HasDistinctNames before) (hafter : HasDistinctNames after)
    {name : String} :
    (∃ name', Moves before after name name') ↔ ∃ previous, Moves before after previous name := by
  have hperm := sharedOrder_perm hbefore hafter
  constructor
  · rintro ⟨name', rank, hnew, hold, hmoved⟩
    obtain ⟨rank', previous, hold', hnew', hmoved'⟩ := exists_moved_of_moved hperm.symm
      (sharedOrder_nodup hbefore after) hold hnew hmoved.symm
    exact ⟨previous, rank', hnew', hold', hmoved'.symm⟩
  · rintro ⟨previous, rank, hnew, hold, hmoved⟩
    obtain ⟨rank', name', hnew', hold', hmoved'⟩ := exists_moved_of_moved hperm
      (sharedOrder_nodup hafter before) hnew hold hmoved
    exact ⟨name', rank', hnew', hold', hmoved'⟩

theorem exists_before?_reorderings_iff (hbefore : HasDistinctNames before)
    (hafter : HasDistinctNames after) {name : String} :
    (∃ d ∈ reorderings (compareParameters comparator before after), d.before? = some name) ↔
      ∃ name', Moves before after name name' := by
  constructor
  · rintro ⟨d, hd, hname⟩
    obtain ⟨name', previous, hmoves, _, hprevious⟩ :=
      exists_moves_of_mem_reorderings hbefore hafter hd
    cases hname.symm.trans hprevious
    exact ⟨name', hmoves⟩
  · rintro ⟨name', hmoves⟩
    obtain ⟨d, hd, _, hname⟩ := hmoves.exists_mem_reorderings hbefore hafter comparator
    exact ⟨d, hd, hname⟩

theorem exists_after?_reorderings_iff (hbefore : HasDistinctNames before)
    (hafter : HasDistinctNames after) {name : String} :
    (∃ d ∈ reorderings (compareParameters comparator before after), d.after? = some name) ↔
      ∃ previous, Moves before after previous name := by
  constructor
  · rintro ⟨d, hd, hname⟩
    obtain ⟨name', previous, hmoves, hname', _⟩ :=
      exists_moves_of_mem_reorderings hbefore hafter hd
    cases hname.symm.trans hname'
    exact ⟨previous, hmoves⟩
  · rintro ⟨previous, hmoves⟩
    obtain ⟨d, hd, hname, _⟩ := hmoves.exists_mem_reorderings hbefore hafter comparator
    exact ⟨d, hd, hname⟩

theorem before?_reorderings_iff_after? (hbefore : HasDistinctNames before)
    (hafter : HasDistinctNames after) {name : String} :
    (∃ d ∈ reorderings (compareParameters comparator before after), d.before? = some name) ↔
      ∃ d ∈ reorderings (compareParameters comparator before after), d.after? = some name := by
  rw [exists_before?_reorderings_iff hbefore hafter, exists_after?_reorderings_iff hbefore hafter,
    exists_moves_iff hbefore hafter]

/-! ## Main statement -/

theorem reorderings_eq_nil_iff (hbefore : HasDistinctNames before)
    (hafter : HasDistinctNames after) :
    reorderings (compareParameters comparator before after) = [] ↔
      SameRelativeOrder before after := by
  rw [← sharedOrder_eq_iff_sameRelativeOrder hbefore hafter,
    sharedOrder_eq_iff_not_moves hbefore hafter, List.eq_nil_iff_forall_not_mem]
  constructor
  · intro hnone previous name hmoves
    obtain ⟨d, hd, _⟩ := hmoves.exists_mem_reorderings hbefore hafter comparator
    exact hnone d hd
  · intro hstill d hd
    obtain ⟨name, previous, hmoves, _⟩ := exists_moves_of_mem_reorderings hbefore hafter hd
    exact hstill previous name hmoves

/-- One reordering comes with another one: of the name whose place is taken. -/
theorem two_le_length_reorderings (hbefore : HasDistinctNames before)
    (hafter : HasDistinctNames after)
    (h : d ∈ reorderings (compareParameters comparator before after)) :
    2 ≤ (reorderings (compareParameters comparator before after)).length := by
  obtain ⟨name, previous, hmoves, hname, hprevious⟩ :=
    exists_moves_of_mem_reorderings hbefore hafter h
  obtain ⟨d', hd', hname'⟩ := (before?_reorderings_iff_after? hbefore hafter).mp ⟨d, h, hprevious⟩
  obtain ⟨_, _, _, hmoved⟩ := hmoves
  have hdifferent : d ≠ d' := by
    rintro rfl
    exact hmoved (Option.some.inj (hname'.symm.trans hname))
  have hpair : [d, d'].Nodup := by simpa using hdifferent
  exact (List.subperm_of_subset hpair (by simp [h, hd'])).length_le

/-- A comparison reports no reordering exactly if the shared names stand in one order in both
lists, and at least two if they do not.  Each one is of a name that has come to the place of
another, and the names that have come to a place are those whose places were taken. -/
theorem compareParameters_reordered_exact (comparator : TypeComparator)
    (hbefore : HasDistinctNames before) (hafter : HasDistinctNames after) :
    let reordered := reorderings (compareParameters comparator before after)
    (reordered = [] ↔ SameRelativeOrder before after) ∧
      (¬ SameRelativeOrder before after → 2 ≤ reordered.length) ∧
      (∀ name : String,
        (∃ d ∈ reordered, d.before? = some name) ↔ ∃ d ∈ reordered, d.after? = some name) ∧
      ∀ d ∈ reordered, ∃ name previous : String,
        d.after? = some name ∧ d.before? = some previous ∧ previous ≠ name := by
  intro reordered
  have hnil : reordered = [] ↔ SameRelativeOrder before after :=
    reorderings_eq_nil_iff hbefore hafter
  refine ⟨hnil, fun hmoved => ?_, fun name => before?_reorderings_iff_after? hbefore hafter,
    fun d hd => ?_⟩
  · obtain ⟨d, hd⟩ := List.exists_mem_of_ne_nil reordered (mt hnil.mp hmoved)
    exact two_le_length_reorderings hbefore hafter hd
  · obtain ⟨name, previous, ⟨_, _, _, hmoved⟩, hname, hprevious⟩ :=
      exists_moves_of_mem_reorderings hbefore hafter hd
    exact ⟨name, previous, hname, hprevious, hmoved⟩

/-- Three names go round while others come and go between them. -/
theorem compareParameters_reordered_exact_cycle :
    let before : List Parameter :=
      [{ name := "a" }, { name := "old" }, { name := "b" }, { name := "c" }, { name := "d" }]
    let after : List Parameter :=
      [{ name := "extra" }, { name := "b" }, { name := "c" }, { name := "a" }, { name := "x" },
        { name := "d" }]
    (HasDistinctNames before ∧ HasDistinctNames after) ∧
      reorderings (compareParameters .heuristic before after) =
        [.parameterReordered "b" 1 "a", .parameterReordered "c" 2 "b",
          .parameterReordered "a" 3 "c"] ∧
      ¬ SameRelativeOrder before after ∧
      2 ≤ (reorderings (compareParameters .heuristic before after)).length := by
  intro before after
  have hbefore : HasDistinctNames before := by decide
  have hafter : HasDistinctNames after := by decide
  have hdetails : reorderings (compareParameters .heuristic before after) =
      [.parameterReordered "b" 1 "a", .parameterReordered "c" 2 "b",
        .parameterReordered "a" 3 "c"] := by decide +kernel
  obtain ⟨hnil, htwo, _⟩ := compareParameters_reordered_exact .heuristic hbefore hafter
  have hmoved : ¬ SameRelativeOrder before after := by
    rw [← hnil, hdetails]
    exact List.cons_ne_nil _ _
  exact ⟨⟨hbefore, hafter⟩, hdetails, hmoved, htwo hmoved⟩

end ApiDrift.Signature
