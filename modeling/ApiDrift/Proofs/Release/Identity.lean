import ApiDrift.Proofs.Release.Matching

set_option autoImplicit false

/-!
# The diff of a snapshot with itself

A snapshot differs from itself in nothing exactly if no symbol of it repeats a
parameter name.  A second parameter of a name keeps nothing and has no older
parameter to rename, so it is reported as added wherever it stands.
-/

namespace ApiDrift

/-! ## Reflexive comparators -/

/-- The comparator takes every type to be the same as itself. -/
def TypeComparator.IsReflexive (comparator : TypeComparator) : Prop :=
  ∀ type, comparator.relate type type = .same

theorem TypeComparator.isReflexive_heuristic : heuristic.IsReflexive :=
  relateHeuristically_self

/-! ## Signatures -/

namespace Signature

variable {comparator : TypeComparator} {parameters : List Parameter} {position : Nat}
  {p : Parameter}

theorem parameterDetails_self (hrefl : comparator.IsReflexive) :
    parameterDetails comparator p p position = [] := by
  have htype : retypedDetails comparator p p position = [] := by
    rw [retypedDetails, hrefl, TypeRelation.shift?]
  have hrequired : requirednessDetails p p position = [] := by
    unfold requirednessDetails
    cases p.isRequired <;> rfl
  rw [parameterDetails, htype, hrequired, List.append_nil]

/-- A list shares all its names with itself. -/
theorem sharedOrder_self : sharedOrder parameters parameters = parameters.map Parameter.name :=
  List.filter_eq_self.mpr fun _ hname => hasName_iff.mpr hname

/-- Every name of a list has itself at its rank. -/
theorem previousName?_self (h : HasDistinctNames parameters)
    (hp : parameters[position]? = some p) :
    previousName? parameters parameters p.name = some p.name := by
  have hname : p.name ∈ parameters.map Parameter.name :=
    List.mem_map_of_mem (List.mem_of_getElem? hp)
  rw [previousName?, sharedOrder_self, eraseDups_of_nodup h, atRankOf?,
    List.getElem?_eq_getElem (List.idxOf_lt_length_of_mem hname), List.getElem_idxOf]

/-- A parameter without a namesake ahead of it makes no difference to itself. -/
theorem pairingDetails_self (hrefl : comparator.IsReflexive) (h : HasDistinctNames parameters)
    (hp : parameters[position]? = some p) :
    pairingDetails comparator p position
      (pairingAt parameters parameters (previousName? parameters parameters p.name) position
        p.name) = [] := by
  rw [pairingAt_of_shared h h hp (List.mem_of_getElem? hp) rfl, pairingDetails,
    previousName?_self h hp, reorderedDetails, if_pos rfl, parameterDetails_self hrefl,
    List.append_nil]

theorem compareParameters_self (hrefl : comparator.IsReflexive)
    (h : HasDistinctNames parameters) :
    compareParameters comparator parameters parameters = [] := by
  refine compareParameters_eq_nil_iff.mpr ⟨fun _ _ hp => pairingDetails_self hrefl h hp, ?_⟩
  intro position p hp
  rw [isRemovedAt, hasName_of_getElem? hp, Bool.not_true, Bool.false_and]

/-- A parameter behind a namesake is added to its own list. -/
theorem pairingAt_self_of_repeated (hp : parameters[position]? = some p)
    (hrepeated : hasName (parameters.take position) p.name = true) (previous : Option String) :
    pairingAt parameters parameters previous position p.name =
      .added ((parameters.drop (position + 1)).any fun q => hasName parameters q.name) := by
  have hkept : keptAt? parameters parameters position p.name = none := by
    rw [keptAt?, if_pos hrepeated]
  have hat : unpairedAt? parameters parameters position = none := by
    rw [unpairedAt?, hp, Option.filter_some, hasName_of_getElem? hp]
    rfl
  rw [pairingAt, hkept, hat]

/-- A list without a difference to itself has no parameter behind a namesake. -/
theorem hasDistinctNames_of_compareParameters_self
    (h : compareParameters comparator parameters parameters = []) :
    HasDistinctNames parameters := by
  apply HasDistinctNames.of_hasName_take
  intro i p hp
  rw [← Bool.not_eq_true]
  intro hrepeated
  have hnothing := (compareParameters_eq_nil_iff.mp h).1 i p hp
  rw [pairingAt_self_of_repeated hp hrepeated] at hnothing
  simp [pairingDetails] at hnothing

/-- A symbol does not differ from itself exactly if its parameters have distinct
names. -/
theorem compareSymbols_self_eq_nil_iff (hrefl : comparator.IsReflexive) {symbol : Symbol} :
    compareSymbols comparator symbol symbol = [] ↔ HasDistinctNames symbol.parameters := by
  have hreturn : returnDetails comparator symbol.returnType symbol.returnType = [] := by
    rw [returnDetails, hrefl, TypeRelation.shift?]
  have hdeprecation : deprecationDetails symbol symbol = [] := by
    unfold deprecationDetails
    cases symbol.isDeprecated <;> rfl
  rw [compareSymbols, hreturn, hdeprecation, List.append_nil, List.append_nil]
  exact ⟨hasDistinctNames_of_compareParameters_self, compareParameters_self hrefl⟩

end Signature

/-! ## Snapshots -/

/-- All modules of a snapshot are matched with themselves. -/
theorem Snapshot.status_of_mem_matchModules_self {s : Snapshot} {m : ModuleMatch}
    (hm : m ∈ s.matchModules s) : m.status = .changed := by
  unfold matchModules at hm
  obtain ⟨path, hpath, rfl⟩ := List.mem_map.mp hm
  rw [mem_mergeNames_iff, or_self] at hpath
  unfold ModuleMatch.ofSides
  cases hmodule : s.module? path with
  | none => exact absurd hpath (module?_eq_none_iff.mp hmodule)
  | some _ => rfl

namespace Diff

variable {comparator : TypeComparator} {s : Snapshot}

theorem changes_self_eq_nil_iff (hrefl : comparator.IsReflexive) :
    (between comparator s s).changes = [] ↔ s.HasDistinctNames := by
  rw [List.eq_nil_iff_forall_not_mem]
  constructor
  · intro h m hm e he symbol hsymbol
    have hexport := Snapshot.export?_eq_some_iff.mpr ⟨m, hm, rfl, he, rfl⟩
    rw [← Signature.compareSymbols_self_eq_nil_iff hrefl]
    by_contra hdiffer
    exact h _ (modification_mem_changes_between hexport hexport hsymbol hsymbol hdiffer)
  · intro h change hmem
    obtain ⟨path, name, hside, hchange⟩ := mem_changes_between_iff.mp hmem
    rw [or_self] at hside
    obtain ⟨e, hexport⟩ := Option.isSome_iff_exists.mp hside
    obtain ⟨before, after, hbefore, hafter, hdiffer, _⟩ :=
      (Match.change?_between_of_matched hexport hexport).mp hchange
    cases hbefore.symm.trans hafter
    have hdistinct := h.of_export? hexport hbefore
    exact hdiffer ((Signature.compareSymbols_self_eq_nil_iff hrefl).mpr hdistinct)

/-- Without a change no module of a snapshot is listed beside itself. -/
theorem moduleChanges_self_eq_nil (h : (between comparator s s).changes = []) :
    (between comparator s s).moduleChanges = [] := by
  have hgroups : (between comparator s s).moduleChanges =
      groupChanges (s.matchModules s) (between comparator s s).changes := rfl
  rw [hgroups, h, groupChanges, List.filterMap_eq_nil_iff]
  intro m hm
  rw [ModuleMatch.moduleChange?, Snapshot.status_of_mem_matchModules_self hm]
  rfl

/-- The diff of a snapshot with itself is empty exactly if no symbol of the snapshot
repeats a parameter name. -/
theorem between_self_is_empty_iff (s : Snapshot) :
    ((between .heuristic s s).changes = [] ∧ (between .heuristic s s).moduleChanges = [] ∧
        (between .heuristic s s).tally = ⟨0, 0, 0, 0, 0, 0, 0⟩ ∧
        (between .heuristic s s).bump = .none) ↔
      s.HasDistinctNames := by
  have hchanges := changes_self_eq_nil_iff (s := s) TypeComparator.isReflexive_heuristic
  constructor
  · intro h
    exact hchanges.mp h.1
  · intro h
    have hnone := hchanges.mpr h
    have hmodules := moduleChanges_self_eq_nil hnone
    have htally : (between .heuristic s s).tally =
        .ofChanges (between .heuristic s s).changes (between .heuristic s s).moduleChanges := rfl
    have hbump : (between .heuristic s s).bump =
        .ofChanges (between .heuristic s s).changes := rfl
    refine ⟨hnone, hmodules, ?_, ?_⟩
    · rw [htally, hnone, hmodules]
      rfl
    · rw [hbump, hnone]
      rfl

/-- A function with two parameters of one name is a breaking change of itself. -/
theorem between_self_not_always_empty :
    ¬ ∀ s : Snapshot,
      (between .heuristic s s).changes = [] ∧ (between .heuristic s s).moduleChanges = [] ∧
        (between .heuristic s s).tally = ⟨0, 0, 0, 0, 0, 0, 0⟩ ∧
        (between .heuristic s s).bump = .none := by
  intro h
  let f : Symbol := { id := "#f", name := "f", parameters := [{ name := "a" }, { name := "a" }] }
  let s : Snapshot :=
    ⟨"s", "", "", [⟨"m", [{ name := "f", symbol := some f }], "", by simp⟩], none, {}, by simp⟩
  have hmajor : (between .heuristic s s).bump = .major := by decide +kernel
  have hnone := (h s).2.2.2
  rw [hmajor] at hnone
  simp at hnone

end Diff

end ApiDrift
