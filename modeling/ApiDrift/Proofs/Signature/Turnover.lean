import ApiDrift.Proofs.Signature.Places

set_option autoImplicit false

/-!
# Parameters that come, go and are renamed

A comparison of two lists of distinct names accounts for each parameter without a
namesake once.  Two of them at the same position are a rename, any other one of the newer
list is added and any other one of the older list is removed.  The removed ones are listed
last.  With the shared names these make up both lists, so additions and removals
differ by as much as the lengths of the lists do.
-/

namespace ApiDrift.Signature

variable {comparator : TypeComparator} {before after : List Parameter} {position : Nat}
  {old new : Parameter} {d : Detail}

/-! ## Parameters without a namesake -/

/-- Two parameters stand at the same position, and neither has a namesake in the other
list. -/
def RenamedAt (before after : List Parameter) (position : Nat) (old new : Parameter) : Prop :=
  before[position]? = some old ∧ after[position]? = some new ∧
    hasName after old.name = false ∧ hasName before new.name = false

/-- A newer parameter has no namesake and is not renamed. -/
def AddedAt (before after : List Parameter) (position : Nat) (new : Parameter) : Prop :=
  after[position]? = some new ∧ hasName before new.name = false ∧
    ∀ old, ¬ RenamedAt before after position old new

/-- An older parameter has no namesake and is not renamed. -/
def RemovedAt (before after : List Parameter) (position : Nat) (old : Parameter) : Prop :=
  before[position]? = some old ∧ hasName after old.name = false ∧
    ∀ new, ¬ RenamedAt before after position old new

/-- A newer parameter without a namesake is added if the older one at its position has
one. -/
theorem addedAt_iff :
    AddedAt before after position new ↔
      after[position]? = some new ∧ hasName before new.name = false ∧
        ∀ old, before[position]? = some old → hasName after old.name = true := by
  refine and_congr_right fun hat => and_congr_right fun hunshared => forall_congr' fun old => ?_
  rw [← Bool.not_eq_false]
  exact ⟨fun h hold hunpaired => h ⟨hold, hat, hunpaired, hunshared⟩,
    fun h hrenamed => h hrenamed.1 hrenamed.2.2.1⟩

theorem removedAt_iff (hafter : HasDistinctNames after) :
    RemovedAt before after position old ↔
      before[position]? = some old ∧ isRemovedAt before after position old = true := by
  rw [isRemovedAt_iff hafter]
  refine and_congr_right fun hold => and_congr_right fun hunpaired => forall_congr' fun new => ?_
  rw [← Bool.not_eq_false]
  exact ⟨fun h hat hunshared => h ⟨hold, hat, hunpaired, hunshared⟩,
    fun h hrenamed => h hrenamed.2.1 hrenamed.2.2.2⟩

/-! ## Members of a comparison -/

/-- Whether a kind of difference is of a parameter without a namesake. -/
def isTurnover : DetailKind → Bool
  | .parameterAdded | .parameterRemoved | .parameterRenamed => true
  | _ => false

theorem isAlteration_eq_false_of_isTurnover {kind : DetailKind} (h : isTurnover kind = true) :
    isAlteration kind = false := by
  revert h
  cases kind <;> simp [isTurnover, isAlteration]

/-- Whether an added parameter breaks callers: they have to supply it, or it shifts a kept
one. -/
def additionBreaks (before after : List Parameter) (position : Nat) (new : Parameter) : Bool :=
  new.isRequired || (after.drop (position + 1)).any fun p => hasName before p.name

theorem mem_of_renamedAt (h : RenamedAt before after position old new) :
    .parameterRenamed position old.name new.name ∈ compareParameters comparator before after := by
  obtain ⟨hold, hat, hunpaired, hunshared⟩ := h
  refine mem_compareParameters_iff.mpr (.inl ⟨position, new, hat, ?_⟩)
  rw [pairingAt_of_unpaired hunshared hold hunpaired]
  exact List.mem_cons_self

theorem mem_of_addedAt (h : AddedAt before after position new) :
    .parameterAdded new.name position (writtenText new.type)
        (additionBreaks before after position new) ∈
      compareParameters comparator before after := by
  obtain ⟨hat, hunshared, hpaired⟩ := addedAt_iff.mp h
  refine mem_compareParameters_iff.mpr (.inl ⟨position, new, hat, ?_⟩)
  rw [pairingAt_of_added hunshared hpaired]
  exact List.mem_cons_self

theorem mem_of_removedAt (hafter : HasDistinctNames after)
    (h : RemovedAt before after position old) :
    .parameterRemoved old.name position (writtenText old.type) ∈
      compareParameters comparator before after := by
  obtain ⟨hold, hremoved⟩ := (removedAt_iff hafter).mp h
  exact mem_compareParameters_iff.mpr (.inr ⟨position, old, hold, hremoved, rfl⟩)

/-- A difference of a parameter without a namesake is a rename, an addition or a removal. -/
theorem cases_of_mem_of_isTurnover (hbefore : HasDistinctNames before)
    (hafter : HasDistinctNames after) (h : d ∈ compareParameters comparator before after)
    (hkind : isTurnover d.kind = true) :
    (∃ position old new, RenamedAt before after position old new ∧
      d = .parameterRenamed position old.name new.name) ∨
    (∃ position new, AddedAt before after position new ∧
      d = .parameterAdded new.name position (writtenText new.type)
        (additionBreaks before after position new)) ∨
    ∃ position old, RemovedAt before after position old ∧
      d = .parameterRemoved old.name position (writtenText old.type) := by
  have hunaltered := isAlteration_eq_false_of_isTurnover hkind
  rcases mem_compareParameters_iff.mp h with
    ⟨position, new, hat, hd⟩ | ⟨position, old, hold, hremoved, rfl⟩
  · obtain ⟨old, _, _, hpairing⟩ | ⟨hunshared, old, hold, hunpaired, hpairing⟩ |
      ⟨hunshared, hpaired, _⟩ := pairingAt_cases hbefore hafter hat
        (previousName? before after new.name)
    · rw [hpairing] at hd
      rcases List.mem_append.mp hd with hreordered | haltered
      · rw [kind_of_mem_reorderedDetails hreordered] at hkind
        cases hkind
      · exact absurd haltered (not_mem_parameterDetails hunaltered)
    · rw [hpairing] at hd
      rcases List.mem_cons.mp hd with rfl | haltered
      · exact .inl ⟨position, old, new, ⟨hold, hat, hunpaired, hunshared⟩, rfl⟩
      · exact absurd haltered (not_mem_parameterDetails hunaltered)
    · rw [pairingAt_of_added hunshared hpaired] at hd
      exact .inr (.inl ⟨position, new, addedAt_iff.mpr ⟨hat, hunshared, hpaired⟩,
        List.mem_singleton.mp hd⟩)
  · exact .inr (.inr ⟨position, old, (removedAt_iff hafter).mpr ⟨hold, hremoved⟩, rfl⟩)

/-! ## One detail a parameter -/

/-- Where the details of a kind stand at parameters of a list of distinct names, no two are of
the same one. -/
theorem parameter_nodup_of_placesOf {kind : DetailKind} {details : List Detail}
    {parameters : List Parameter} {test : Parameter × Nat → Bool}
    (hnames : HasDistinctNames parameters)
    (hplaces : placesOf kind details = (parameters.zipIdx.filter test).map place) :
    ((details.filter fun d => d.kind = kind).map Detail.parameter?).Nodup := by
  have hall : (parameters.zipIdx.map fun p => some p.1.name).Nodup := by
    have hsome := hnames.map (Option.some_injective String)
    rw [← List.zipIdx_map_fst 0 parameters, List.map_map, List.map_map] at hsome
    exact hsome
  have hparameters : (details.filter fun d => d.kind = kind).map Detail.parameter? =
      (parameters.zipIdx.filter test).map fun p => some p.1.name := by
    calc (details.filter fun d => d.kind = kind).map Detail.parameter?
        = (placesOf kind details).map Prod.fst := by
          rw [placesOf, List.map_map]
          rfl
      _ = (parameters.zipIdx.filter test).map fun p => some p.1.name := by
          rw [hplaces, List.map_map]
          rfl
  rw [hparameters]
  exact hall.sublist (List.filter_sublist.map _)

/-- No parameter is added, removed or renamed twice. -/
theorem parameter_nodup (hbefore : HasDistinctNames before) (hafter : HasDistinctNames after)
    (comparator : TypeComparator) {kind : DetailKind} (hkind : isTurnover kind = true) :
    (((compareParameters comparator before after).filter fun d => d.kind = kind).map
      Detail.parameter?).Nodup := by
  cases kind <;> try cases hkind
  case parameterAdded =>
    exact parameter_nodup_of_placesOf hafter (placesOf_added hbefore hafter comparator)
  case parameterRemoved =>
    exact parameter_nodup_of_placesOf hbefore (placesOf_removed comparator before after)
  case parameterRenamed =>
    exact parameter_nodup_of_placesOf hafter (placesOf_renamed hbefore hafter comparator)

/-! ## Order of the removals -/

/-- Behind a removal there are only removals, at later positions. -/
def RemovalsLast (details : List Detail) : Prop :=
  details.Pairwise fun d d' => d.kind = .parameterRemoved →
    d'.kind = .parameterRemoved ∧
      ∃ i j, d.position? = some i ∧ d'.position? = some j ∧ i < j

theorem removals_pairwise (before after : List Parameter) :
    (removals before after).Pairwise fun p p' => p.2 < p'.2 := by
  have hpositions : (before.zipIdx.map Prod.snd).Pairwise (· < ·) := by
    rw [List.zipIdx_map_snd]
    exact List.pairwise_lt_range'
  exact (List.pairwise_map.mp hpositions).filter _

theorem compareParameters_removalsLast (comparator : TypeComparator)
    (before after : List Parameter) :
    RemovalsLast (compareParameters comparator before after) := by
  have hfirst : ∀ d ∈ (pairings before after).flatMap fun p =>
      pairingDetails comparator p.1 p.2.1 p.2.2, d.kind ≠ .parameterRemoved := by
    intro d hd
    obtain ⟨_, _, hd⟩ := List.mem_flatMap.mp hd
    exact kind_ne_removed_of_mem_pairingDetails hd
  rw [compareParameters_eq, RemovalsLast, List.pairwise_append]
  refine ⟨?_, ?_, fun d hd d' _ hremoved => absurd hremoved (hfirst d hd)⟩
  · exact List.pairwise_of_forall_mem_list fun d hd _ _ hremoved =>
      absurd hremoved (hfirst d hd)
  · rw [List.pairwise_map]
    exact (removals_pairwise before after).imp fun hlt _ => ⟨rfl, _, _, rfl, rfl, hlt⟩

/-! ## Balance -/

/-- An older parameter without a namesake is renamed or removed. -/
theorem isRemovedAt_eq (hafter : HasDistinctNames after) (hold : before[position]? = some old) :
    isRemovedAt before after position old =
      (!hasName after old.name && !isRenamedAt after before position) := by
  rw [Bool.eq_iff_iff, isRemovedAt_iff hafter, Bool.and_eq_true, Bool.not_eq_true',
    Bool.not_eq_true', ← Bool.not_eq_true (isRenamedAt _ _ _), isRenamedAt_iff hold]
  refine and_congr_right fun hunpaired => ?_
  simp [hunpaired]

/-- The older parameters are shared, renamed or removed. -/
theorem length_eq_shared_add (before : List Parameter) (hafter : HasDistinctNames after) :
    before.length = (sharedOrder before after).length +
      (((List.range before.length).filter (isRenamedAt after before)).length +
        (removals before after).length) := by
  have hshared : (sharedOrder before after).length =
      before.zipIdx.countP fun p => hasName after p.1.name := by
    rw [← List.countP_true, countP_sharedOrder]
    simp only [Bool.true_and]
  have hrenamed : ((List.range before.length).filter (isRenamedAt after before)).length =
      before.zipIdx.countP fun p => !hasName after p.1.name && isRenamedAt after before p.2 := by
    rw [List.range_eq_range', ← List.zipIdx_map_snd 0 before, List.filter_map, List.length_map,
      ← List.countP_eq_length_filter]
    refine List.countP_congr fun p hp => ?_
    have hold := List.mk_mem_zipIdx_iff_getElem?.mp hp
    rw [Function.comp_apply, Bool.and_eq_true, Bool.not_eq_true', iff_and_self,
      isRenamedAt_iff hold]
    exact And.left
  have hremoved : (removals before after).length =
      before.zipIdx.countP fun p => !hasName after p.1.name && !isRenamedAt after before p.2 := by
    rw [removals, ← List.countP_eq_length_filter]
    refine List.countP_congr fun p hp => ?_
    exact iff_of_eq (congrArg (· = true)
      (isRemovedAt_eq hafter (List.mk_mem_zipIdx_iff_getElem?.mp hp)))
  rw [hshared, hrenamed, hremoved, ← List.countP_filter, ← List.countP_filter,
    ← List.countP_eq_countP_filter_add]
  have hlength := List.length_eq_countP_add_countP (fun p => hasName after p.1.name)
    (l := before.zipIdx)
  rw [List.length_zipIdx] at hlength
  simpa using hlength

/-- There are as many more additions than removals as there are more newer parameters than
older ones. -/
theorem count_added_add_length (hbefore : HasDistinctNames before) (hafter : HasDistinctNames after)
    (comparator : TypeComparator) :
    ((compareParameters comparator before after).map Detail.kind).count .parameterAdded +
        before.length =
      ((compareParameters comparator before after).map Detail.kind).count .parameterRemoved +
        after.length := by
  have holder := length_eq_shared_add before hafter
  have hnewer := length_eq_shared_add after hbefore
  rw [range_filter_isRenamedAt_swap, (sharedOrder_perm hafter hbefore).length_eq] at hnewer
  rw [count_kind_eq_length_placesOf, count_kind_eq_length_placesOf, placesOf_added hbefore hafter,
    placesOf_removed, List.length_map, List.length_map]
  omega

/-! ## Every parameter once -/

/-- Details report what becomes of every parameter without a namesake, and report it once.
They say nothing of the kind about a shared name. -/
structure AccountsFor (before after : List Parameter) (details : List Detail) : Prop where
  renamed : ∀ position previous name, .parameterRenamed position previous name ∈ details ↔
    ∃ old new, RenamedAt before after position old new ∧ old.name = previous ∧ new.name = name
  added : ∀ name position type breaking, .parameterAdded name position type breaking ∈ details ↔
    ∃ new, AddedAt before after position new ∧ new.name = name ∧ writtenText new.type = type ∧
      additionBreaks before after position new = breaking
  removed : ∀ name position type, .parameterRemoved name position type ∈ details ↔
    ∃ old, RemovedAt before after position old ∧ old.name = name ∧ writtenText old.type = type
  once : ∀ d ∈ details, isTurnover d.kind = true →
    (details.filter fun d' => d'.kind = d.kind ∧ d'.parameter? = d.parameter?) = [d]
  removalsLast : RemovalsLast details
  shared : ∀ d ∈ details, isTurnover d.kind = true →
    ∀ name, hasName before name = true → hasName after name = true →
      d.parameter? ≠ some name ∧ (d.kind = .parameterRenamed → d.before? ≠ some name)
  balance : ((details.map Detail.kind).count .parameterAdded : Int) -
    (details.map Detail.kind).count .parameterRemoved = (after.length : Int) - before.length

/-- Where a parameter is added, removed or renamed, no other detail of the kind is of it. -/
theorem filter_kind_parameter_eq_singleton (hbefore : HasDistinctNames before)
    (hafter : HasDistinctNames after) (h : d ∈ compareParameters comparator before after)
    (hkind : isTurnover d.kind = true) :
    ((compareParameters comparator before after).filter fun d' =>
      d'.kind = d.kind ∧ d'.parameter? = d.parameter?) = [d] := by
  have hnodup := parameter_nodup hbefore hafter comparator hkind
  have hmem : d ∈ (compareParameters comparator before after).filter fun d' => d'.kind = d.kind :=
    List.mem_filter.mpr ⟨h, decide_eq_true rfl⟩
  rw [← Keyed.filter_eq_singleton hnodup hmem, List.filter_filter]
  refine List.filter_congr fun d' _ => ?_
  rw [Bool.decide_and, Bool.and_comm]

/-- A comparison of two lists of distinct names accounts for every parameter exactly once. -/
theorem compareParameters_accountsFor (comparator : TypeComparator)
    (hbefore : HasDistinctNames before) (hafter : HasDistinctNames after) :
    AccountsFor before after (compareParameters comparator before after) where
  renamed position previous name := by
    refine ⟨fun h => ?_, ?_⟩
    · obtain ⟨_, old, new, hrenamed, hd⟩ | ⟨_, _, _, hd⟩ | ⟨_, _, _, hd⟩ :=
        cases_of_mem_of_isTurnover hbefore hafter h rfl
      · cases hd
        exact ⟨old, new, hrenamed, rfl, rfl⟩
      · cases hd
      · cases hd
    · rintro ⟨old, new, hrenamed, rfl, rfl⟩
      exact mem_of_renamedAt hrenamed
  added name position type breaking := by
    refine ⟨fun h => ?_, ?_⟩
    · obtain ⟨_, _, _, _, hd⟩ | ⟨_, new, hadded, hd⟩ | ⟨_, _, _, hd⟩ :=
        cases_of_mem_of_isTurnover hbefore hafter h rfl
      · cases hd
      · cases hd
        exact ⟨new, hadded, rfl, rfl, rfl⟩
      · cases hd
    · rintro ⟨new, hadded, rfl, rfl, rfl⟩
      exact mem_of_addedAt hadded
  removed name position type := by
    refine ⟨fun h => ?_, ?_⟩
    · obtain ⟨_, _, _, _, hd⟩ | ⟨_, _, _, hd⟩ | ⟨_, old, hremoved, hd⟩ :=
        cases_of_mem_of_isTurnover hbefore hafter h rfl
      · cases hd
      · cases hd
      · cases hd
        exact ⟨old, hremoved, rfl, rfl⟩
    · rintro ⟨old, hremoved, rfl, rfl⟩
      exact mem_of_removedAt hafter hremoved
  once _ hd hkind := filter_kind_parameter_eq_singleton hbefore hafter hd hkind
  removalsLast := compareParameters_removalsLast comparator before after
  shared d hd hkind name hold hnew := by
    obtain ⟨_, old, new, ⟨_, _, hunpaired, hunshared⟩, rfl⟩ | ⟨_, new, ⟨_, hunshared, _⟩, rfl⟩ |
      ⟨_, old, ⟨_, hunpaired, _⟩, rfl⟩ := cases_of_mem_of_isTurnover hbefore hafter hd hkind
    · refine ⟨fun h => ?_, fun _ h => ?_⟩
      · cases h
        simp [hold] at hunshared
      · cases h
        simp [hnew] at hunpaired
    · refine ⟨fun h => ?_, fun h => nomatch h⟩
      cases h
      simp [hold] at hunshared
    · refine ⟨fun h => ?_, fun h => nomatch h⟩
      cases h
      simp [hnew] at hunpaired
  balance := by
    have := count_added_add_length hbefore hafter comparator
    omega

/-- Two kept parameters change places, around them one is renamed, one added and one
removed. -/
theorem compareParameters_accountsFor_mixed :
    let before : List Parameter :=
      [{ name := "a" }, { name := "old" }, { name := "b" }, { name := "gone" }, { name := "c" }]
    let after : List Parameter :=
      [{ name := "b" }, { name := "new" }, { name := "extra" }, { name := "a" }, { name := "c" }]
    (HasDistinctNames before ∧ HasDistinctNames after) ∧
      AccountsFor before after (compareParameters .heuristic before after) ∧
      compareParameters .heuristic before after =
        [.parameterReordered "b" 0 "a", .parameterRenamed 1 "old" "new",
          .parameterAdded "extra" 2 none true, .parameterReordered "a" 3 "b",
          .parameterRemoved "gone" 3 none] := by
  intro before after
  have hbefore : HasDistinctNames before := by decide
  have hafter : HasDistinctNames after := by decide
  exact ⟨⟨hbefore, hafter⟩, compareParameters_accountsFor .heuristic hbefore hafter,
    by decide +kernel⟩

end ApiDrift.Signature
