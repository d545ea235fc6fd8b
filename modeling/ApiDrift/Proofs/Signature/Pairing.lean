import ApiDrift.Keyed
import ApiDrift.Proofs.Distinct
import ApiDrift.Signature.Compare
import Mathlib.Data.List.Perm.Subperm

set_option autoImplicit false

/-!
# Pairing parameters of distinct names

Where no name is repeated in a list, what a parameter stands for can be read off
its position: it keeps its namesake if there is one, it renames the older parameter
at its position if neither has a namesake, and is added otherwise.  The shared
names are then the same on both sides but for their order.
-/

namespace ApiDrift.Signature

/-- No two parameters of a list have the same name. -/
def HasDistinctNames (parameters : List Parameter) : Prop :=
  (parameters.map Parameter.name).Nodup

instance (parameters : List Parameter) : Decidable (HasDistinctNames parameters) :=
  inferInstanceAs (Decidable (List.Nodup _))

variable {before after : List Parameter} {position : Nat} {old new : Parameter}

theorem hasName_eq_false_iff {parameters : List Parameter} {name : String} :
    hasName parameters name = false ↔ name ∉ parameters.map Parameter.name := by
  rw [← Bool.not_eq_true, hasName_iff]

theorem hasName_of_getElem? {parameters : List Parameter} {p : Parameter}
    (h : parameters[position]? = some p) : hasName parameters p.name = true :=
  hasName_iff.mpr (List.mem_map_of_mem (List.mem_of_getElem? h))

theorem getElem?_names_eq_some_iff {parameters : List Parameter} {name : String} :
    (parameters.map Parameter.name)[position]? = some name ↔
      ∃ p, parameters[position]? = some p ∧ p.name = name := by
  rw [List.getElem?_map, Option.map_eq_some_iff]

theorem getElem?_name {parameters : List Parameter} {p : Parameter}
    (h : parameters[position]? = some p) :
    (parameters.map Parameter.name)[position]? = some p.name :=
  getElem?_names_eq_some_iff.mpr ⟨p, h, rfl⟩

/-! ## First positions -/

/-- The position at which a list first has a name. -/
def firstPosition (parameters : List Parameter) (name : String) : Nat :=
  (parameters.map Parameter.name).idxOf name

section FirstPosition

variable {parameters : List Parameter} {name : String}

theorem exists_at_firstPosition (h : hasName parameters name = true) :
    ∃ p, parameters[firstPosition parameters name]? = some p ∧ p.name = name :=
  getElem?_names_eq_some_iff.mp (List.getElem?_idxOf (hasName_iff.mp h))

theorem firstPosition_inj {other : String} (h : hasName parameters name = true) :
    firstPosition parameters name = firstPosition parameters other ↔ name = other :=
  List.idxOf_inj (hasName_iff.mp h)

theorem firstPosition_le {p : Parameter} (h : parameters[position]? = some p) :
    firstPosition parameters p.name ≤ position := by
  have hmem := List.mem_take_iff_idxOf_lt (n := position + 1)
    (hasName_iff.mp (hasName_of_getElem? h))
  refine Nat.le_of_lt_succ (hmem.mp (List.mem_of_getElem? (i := position) ?_))
  rw [List.getElem?_take, if_pos (Nat.lt_succ_self position), getElem?_name h]

/-- Ahead of its first position a list does not have a name. -/
theorem hasName_take_firstPosition (parameters : List Parameter) (name : String) :
    hasName (parameters.take (firstPosition parameters name)) name = false := by
  rw [hasName_eq_false_iff, List.map_take]
  intro hmem
  exact Nat.lt_irrefl _ ((List.mem_take_iff_idxOf_lt (List.mem_of_mem_take hmem)).mp hmem)

end FirstPosition

/-! ## Distinct names -/

namespace HasDistinctNames

variable {parameters : List Parameter}

/-- A name stands at one position at most. -/
theorem position_unique (h : HasDistinctNames parameters) {i j : Nat} {p q : Parameter}
    (hp : parameters[i]? = some p) (hq : parameters[j]? = some q) (hname : p.name = q.name) :
    i = j := by
  have hi := getElem?_name hp
  have hj := getElem?_name hq
  rw [← hname] at hj
  obtain ⟨hlt, _⟩ := List.getElem?_eq_some_iff.mp hi
  exact (List.getElem?_inj hlt h).mp (hi.trans hj.symm)

/-- A parameter is not preceded by a namesake. -/
theorem hasName_take_eq_false (h : HasDistinctNames parameters)
    (hnew : parameters[position]? = some new) :
    hasName (parameters.take position) new.name = false := by
  rw [hasName_eq_false_iff]
  intro hmem
  obtain ⟨earlier, hearlier, hname⟩ := List.mem_map.mp hmem
  obtain ⟨i, hi⟩ := List.mem_iff_getElem?.mp hearlier
  rw [List.getElem?_take] at hi
  split at hi
  · rename_i hlt
    exact absurd (h.position_unique hi hnew hname) (Nat.ne_of_lt hlt)
  · simp at hi

/-- The other way round: names are distinct if no parameter is preceded by a
namesake. -/
theorem of_hasName_take
    (h : ∀ i p, parameters[i]? = some p → hasName (parameters.take i) p.name = false) :
    HasDistinctNames parameters := by
  rw [HasDistinctNames, List.nodup_iff_pairwise_ne, List.pairwise_iff_getElem]
  intro i j hi hj hlt hsame
  rw [List.length_map] at hi hj
  have hfresh := h j parameters[j] (List.getElem?_eq_getElem hj)
  rw [hasName_eq_false_iff] at hfresh
  apply hfresh
  rw [List.getElem_map, List.getElem_map] at hsame
  rw [← hsame]
  refine List.mem_map_of_mem (List.mem_of_getElem? (i := i) ?_)
  rw [List.getElem?_take, if_pos hlt, List.getElem?_eq_getElem hi]

theorem lastNamed?_eq_some_iff (h : HasDistinctNames parameters) {name : String} {p : Parameter} :
    lastNamed? parameters name = some p ↔ p ∈ parameters ∧ p.name = name := by
  have hreverse : (parameters.reverse.map Parameter.name).Nodup := by
    rw [List.map_reverse, List.nodup_reverse]
    exact h
  rw [← List.mem_reverse]
  exact Keyed.find?_eq_some_iff hreverse

end HasDistinctNames

theorem lastNamed?_eq_none_iff {parameters : List Parameter} {name : String} :
    lastNamed? parameters name = none ↔ hasName parameters name = false := by
  rw [lastNamed?, List.find?_eq_none, hasName, List.any_eq_false]
  simp only [List.mem_reverse]

/-! ## What a parameter stands for -/

/-- Of a shared name the first parameter is kept. -/
theorem keptAt?_isSome_iff {name : String} :
    (keptAt? before after position name).isSome = true ↔
      hasName (after.take position) name = false ∧ hasName before name = true := by
  cases hseen : hasName (after.take position) name with
  | true => simp [keptAt?, hseen]
  | false =>
    rw [keptAt?, hseen, if_neg Bool.false_ne_true, Option.isSome_iff_ne_none, ne_eq,
      lastNamed?_eq_none_iff, Bool.not_eq_false]
    simp

/-- A parameter without a namesake is kept of nothing. -/
theorem keptAt?_eq_none_of_unshared (hnew : hasName before new.name = false) :
    keptAt? before after position new.name = none := by
  rw [keptAt?, lastNamed?_eq_none_iff.mpr hnew, ite_self]

theorem keptAt?_of_shared (hbefore : HasDistinctNames before) (hafter : HasDistinctNames after)
    (hnew : after[position]? = some new) (hold : old ∈ before) (hname : old.name = new.name) :
    keptAt? before after position new.name = some old := by
  rw [keptAt?, hafter.hasName_take_eq_false hnew]
  exact hbefore.lastNamed?_eq_some_iff.mpr ⟨hold, hname⟩

theorem pairingAt_of_shared (hbefore : HasDistinctNames before) (hafter : HasDistinctNames after)
    (hnew : after[position]? = some new) (hold : old ∈ before) (hname : old.name = new.name)
    (previous : Option String) :
    pairingAt before after previous position new.name = .kept old previous := by
  rw [pairingAt, keptAt?_of_shared hbefore hafter hnew hold hname]

theorem pairingAt_of_unpaired (hnew : hasName before new.name = false)
    (hold : before[position]? = some old) (hunpaired : hasName after old.name = false)
    (previous : Option String) :
    pairingAt before after previous position new.name = .renamed old := by
  have hat : unpairedAt? before after position = some old := by
    simp [unpairedAt?, hold, hunpaired]
  rw [pairingAt, keptAt?_eq_none_of_unshared hnew, hat]

theorem pairingAt_of_added (hnew : hasName before new.name = false)
    (hpaired : ∀ old, before[position]? = some old → hasName after old.name = true)
    (previous : Option String) :
    pairingAt before after previous position new.name =
      .added ((after.drop (position + 1)).any fun p => hasName before p.name) := by
  have hat : unpairedAt? before after position = none := by
    rw [unpairedAt?, Option.filter_eq_none_iff]
    intro old hold
    simp [hpaired old hold]
  rw [pairingAt, keptAt?_eq_none_of_unshared hnew, hat]

/-! ## Shared names -/

theorem mem_sharedOrder_iff {name : String} :
    name ∈ sharedOrder before after ↔ hasName before name = true ∧ hasName after name = true := by
  rw [sharedOrder, List.mem_filter, ← hasName_iff]

theorem sharedOrder_nodup (h : HasDistinctNames before) (after : List Parameter) :
    (sharedOrder before after).Nodup :=
  h.filter _

theorem sharedOrder_take_succ (hat : after[position]? = some new) :
    sharedOrder (after.take (position + 1)) before =
      sharedOrder (after.take position) before ++ [new.name].filter (hasName before) := by
  rw [sharedOrder, List.take_add_one, hat, List.map_append, List.filter_append]
  rfl

/-- Both sides share the same names. -/
theorem sharedOrder_perm (hbefore : HasDistinctNames before) (hafter : HasDistinctNames after) :
    (sharedOrder before after).Perm (sharedOrder after before) := by
  refine (List.perm_ext_iff_of_nodup (sharedOrder_nodup hbefore after)
    (sharedOrder_nodup hafter before)).mpr fun name => ?_
  rw [mem_sharedOrder_iff, mem_sharedOrder_iff, and_comm]

/-! ## Ranks of shared names -/

/-- The distinct shared names are among those of the older list. -/
theorem eraseDups_sharedOrder_subperm (before after : List Parameter) :
    (sharedOrder after before).eraseDups.Subperm (sharedOrder before after) := by
  refine List.subperm_of_subset (eraseDups_nodup _) fun name hname => ?_
  rw [List.mem_eraseDups, mem_sharedOrder_iff] at hname
  exact mem_sharedOrder_iff.mpr hname.symm

theorem idxOf_shared_lt {name : String} (hold : hasName before name = true)
    (hshared : hasName after name = true) :
    (sharedOrder after before).eraseDups.idxOf name <
      (sharedOrder after before).eraseDups.length :=
  List.idxOf_lt_length_of_mem (List.mem_eraseDups.mpr (mem_sharedOrder_iff.mpr ⟨hshared, hold⟩))

/-- The older list has a shared name at every rank of the newer one. -/
theorem idxOf_lt_length_sharedOrder {name : String} (hold : hasName before name = true)
    (hshared : hasName after name = true) :
    (sharedOrder after before).eraseDups.idxOf name < (sharedOrder before after).length :=
  Nat.lt_of_lt_of_le (idxOf_shared_lt hold hshared)
    (eraseDups_sharedOrder_subperm before after).length_le

/-! ## Members of the pairings -/

/-- The shared name that the older list has at the rank of a name. -/
def previousName? (before after : List Parameter) (name : String) : Option String :=
  atRankOf? (sharedOrder before after) (sharedOrder after before).eraseDups name

theorem mem_pairings_iff {pairing : Pairing} :
    (new, position, pairing) ∈ pairings before after ↔
      after[position]? = some new ∧
        pairing =
          pairingAt before after (previousName? before after new.name) position new.name := by
  simp only [pairings, List.mem_map, Prod.exists, Prod.mk.injEq]
  constructor
  · intro h
    obtain ⟨p, i, hmem, rfl, rfl, hpairing⟩ := h
    exact ⟨List.mk_mem_zipIdx_iff_getElem?.mp hmem, hpairing.symm⟩
  · intro h
    exact ⟨new, position, List.mk_mem_zipIdx_iff_getElem?.mpr h.1, rfl, rfl, h.2.symm⟩

theorem getElem?_pairings (hat : after[position]? = some new) :
    (pairings before after)[position]? = some (new, position,
      pairingAt before after (previousName? before after new.name) position new.name) := by
  rw [pairings, List.getElem?_map, List.getElem?_zipIdx, hat, Nat.zero_add]
  rfl

theorem mem_removals_iff :
    (old, position) ∈ removals before after ↔
      before[position]? = some old ∧ isRemovedAt before after position old = true := by
  rw [removals, List.mem_filter, List.mk_mem_zipIdx_iff_getElem?]

/-- A removed parameter has no namesake. -/
theorem hasName_eq_false_of_isRemovedAt (h : isRemovedAt before after position old = true) :
    hasName after old.name = false := by
  rw [isRemovedAt, Bool.and_eq_true, Bool.not_eq_true'] at h
  exact h.1

/-! ## Members of a comparison -/

/-- A detail of a comparison comes from what a newer parameter stands for, or it is the
removal of an older one. -/
theorem mem_compareParameters_iff {comparator : TypeComparator} {d : Detail} :
    d ∈ compareParameters comparator before after ↔
      (∃ (position : Nat) (new : Parameter), after[position]? = some new ∧
        d ∈ pairingDetails comparator new position
          (pairingAt before after (previousName? before after new.name) position new.name)) ∨
      ∃ (position : Nat) (old : Parameter), before[position]? = some old ∧
        isRemovedAt before after position old = true ∧
          d = .parameterRemoved old.name position (writtenText old.type) := by
  rw [compareParameters_eq, List.mem_append, List.mem_flatMap, List.mem_map]
  refine or_congr ⟨?_, ?_⟩ ⟨?_, ?_⟩
  · rintro ⟨⟨new, position, pairing⟩, hmem, hd⟩
    obtain ⟨hat, rfl⟩ := mem_pairings_iff.mp hmem
    exact ⟨position, new, hat, hd⟩
  · rintro ⟨position, new, hat, hd⟩
    exact ⟨(new, position, _), mem_pairings_iff.mpr ⟨hat, rfl⟩, hd⟩
  · rintro ⟨⟨old, position⟩, hmem, rfl⟩
    obtain ⟨hold, hremoved⟩ := mem_removals_iff.mp hmem
    exact ⟨position, old, hold, hremoved, rfl⟩
  · rintro ⟨position, old, hold, hremoved, rfl⟩
    exact ⟨(old, position), mem_removals_iff.mpr ⟨hold, hremoved⟩, rfl⟩

/-- A comparison finds nothing if no newer parameter makes a difference and no older one is
removed. -/
theorem compareParameters_eq_nil_iff {comparator : TypeComparator} :
    compareParameters comparator before after = [] ↔
      (∀ (position : Nat) (new : Parameter), after[position]? = some new →
        pairingDetails comparator new position
          (pairingAt before after (previousName? before after new.name) position new.name) = []) ∧
      ∀ (position : Nat) (old : Parameter), before[position]? = some old →
        isRemovedAt before after position old = false := by
  simp only [List.eq_nil_iff_forall_not_mem, mem_compareParameters_iff, not_or, not_exists, not_and]
  constructor
  · intro h
    refine ⟨fun position new hat d hd => (h d).1 position new hat hd, fun position old hold => ?_⟩
    rw [← Bool.not_eq_true]
    exact fun hremoved => (h _).2 position old hold hremoved rfl
  · intro h d
    refine ⟨fun position new hat => h.1 position new hat d, fun position old hold hremoved => ?_⟩
    rw [h.2 position old hold] at hremoved
    exact absurd hremoved Bool.false_ne_true

end ApiDrift.Signature
