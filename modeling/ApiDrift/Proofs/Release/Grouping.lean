import ApiDrift.Proofs.Release.Matching

set_option autoImplicit false

/-!
# Changes grouped by module

A diff holds its changes in one row and once more module by module.  Since every
matched module has a path of its own, grouping by path gives each module back the
changes that come from it, in their order.  Whether a module breaks callers is then
the same question for all of them, although it is answered from the exports where the
module is gone, not asked where it is new, and read off the changes otherwise.
-/

namespace ApiDrift

/-! ## Changes of a match -/

namespace Match

variable {comparator : TypeComparator} {entry : Match} {change : Change}

/-- A change stands under the module path and the name of its match. -/
theorem names_of_change? (h : entry.change? comparator = some change) :
    change.modulePath = entry.modulePath ∧ change.symbolName = entry.name := by
  unfold change? at h
  split at h
  · cases h
    exact ⟨rfl, rfl⟩
  · cases h
    exact ⟨rfl, rfl⟩
  · obtain ⟨⟨before, after⟩, _, hchange⟩ := Option.bind_eq_some_iff.mp h
    dsimp only at hchange
    split at hchange
    · cases hchange
    · cases hchange
      exact ⟨rfl, rfl⟩

end Match

/-! ## Changes of a matched module -/

namespace ModuleMatch

/-- The changes of a matched module, in the order of its export names. -/
def changes (comparator : TypeComparator) (m : ModuleMatch) : List Change :=
  m.entries.filterMap fun entry => entry.change? comparator

variable {comparator : TypeComparator} {path : String} {before after : Option Module}
  {change : Change}

theorem modulePath_of_mem_entries {entry : Match}
    (h : entry ∈ (ofSides path before after).entries) : entry.modulePath = path := by
  obtain ⟨_, _, rfl⟩ := mem_entries_ofSides_iff.mp h
  rfl

theorem modulePath_of_mem_changes
    (h : change ∈ (ofSides path before after).changes comparator) : change.modulePath = path := by
  obtain ⟨entry, hentry, hchange⟩ := List.mem_filterMap.mp h
  rw [(Match.names_of_change? hchange).1, modulePath_of_mem_entries hentry]

theorem hadExports_ofSides_iff :
    (ofSides path before after).hadExports = true ↔ ∃ name, name ∈ exportNames before := by
  cases before with
  | none => simp [ofSides, exportNames]
  | some m => cases hexports : m.exports <;> simp [ofSides, exportNames, Module.exportNames, hexports]

/-- Every export of a module that is gone is a breaking change, so there is one exactly
if the module had exports. -/
theorem exists_breaking_iff_of_removed :
    (∃ change ∈ (ofSides path before none).changes comparator, change.breaking = true) ↔
      (ofSides path before none).hadExports = true := by
  rw [hadExports_ofSides_iff]
  constructor
  · intro h
    obtain ⟨change, hmem, _⟩ := h
    obtain ⟨entry, hentry, _⟩ := List.mem_filterMap.mp hmem
    obtain ⟨name, hname, _⟩ := mem_entries_ofSides_iff.mp hentry
    exact ⟨name, hname.resolve_right List.not_mem_nil⟩
  · intro h
    obtain ⟨name, hname⟩ := h
    let entry := Match.ofSides path name (before.bind (·.export? name)) none
    have hentry : entry ∈ (ofSides path before none).entries :=
      mem_entries_ofSides_iff.mpr ⟨name, .inl hname, rfl⟩
    exact ⟨_, List.mem_filterMap.mpr ⟨entry, hentry, rfl⟩, rfl⟩

/-- No export of a new module is a breaking change. -/
theorem breaking_eq_false_of_added {m : Module}
    (h : change ∈ (ofSides path none (some m)).changes comparator) : change.breaking = false := by
  obtain ⟨entry, hentry, hchange⟩ := List.mem_filterMap.mp h
  obtain ⟨name, hname, rfl⟩ := mem_entries_ofSides_iff.mp hentry
  have hknown : m.export? name ≠ none := by
    rw [ne_eq, Module.export?_eq_none_iff, not_not]
    exact hname.resolve_left List.not_mem_nil
  obtain ⟨e, he⟩ := Option.ne_none_iff_exists'.mp hknown
  rw [Option.bind_none, Option.bind_some, he] at hchange
  cases hchange
  rfl

/-! ## Entries of a diff -/

variable {all : List Change} {m : ModuleMatch} {entry : ModuleChange}

/-- The entry of a module has its path, its status and the changes under its path. -/
theorem parts_of_moduleChange? (h : m.moduleChange? all = some entry) :
    entry.modulePath = m.modulePath ∧ entry.status = m.status ∧
      entry.changes = all.filter fun change => change.modulePath == m.modulePath := by
  unfold moduleChange? at h
  cases hstatus : m.status with
  | added =>
    rw [hstatus] at h
    cases h
    exact ⟨rfl, rfl, rfl⟩
  | removed =>
    rw [hstatus] at h
    cases h
    exact ⟨rfl, rfl, rfl⟩
  | changed =>
    rw [hstatus] at h
    dsimp only at h
    split at h
    · cases h
    · cases h
      exact ⟨rfl, rfl, rfl⟩

theorem modulePath_of_moduleChange? (h : m.moduleChange? all = some entry) :
    entry.modulePath = m.modulePath :=
  (parts_of_moduleChange? h).1

theorem status_of_moduleChange? (h : m.moduleChange? all = some entry) :
    entry.status = m.status :=
  (parts_of_moduleChange? h).2.1

/-- The entry of a module depends on the changes under its path only. -/
theorem moduleChange?_congr {all' : List Change}
    (h : (all.filter fun change => change.modulePath == m.modulePath) =
      all'.filter fun change => change.modulePath == m.modulePath) :
    m.moduleChange? all = m.moduleChange? all' := by
  simp only [moduleChange?, h]

/-- A module is left out only if it has no changes. -/
theorem changes_moduleChange? (all : List Change) (m : ModuleMatch) :
    (m.moduleChange? all).toList.flatMap ModuleChange.changes =
      all.filter fun change => change.modulePath == m.modulePath := by
  dsimp only [moduleChange?]
  split
  · simp
  · simp
  · split
    · rename_i hnone
      exact (List.isEmpty_iff.mp hnone).symm
    · simp

theorem modulePath_of_mem_changes_moduleChange? (h : m.moduleChange? all = some entry)
    (hchange : change ∈ entry.changes) : change.modulePath = entry.modulePath := by
  obtain ⟨hpath, _, hown⟩ := parts_of_moduleChange? h
  rw [hown, List.mem_filter, beq_iff_eq] at hchange
  rw [hchange.2, hpath]

/-- The entry of a module breaks callers exactly if one of the changes of the module
does. -/
theorem breaking_iff_of_moduleChange?
    (hown : (all.filter fun change => change.modulePath == path) =
      (ofSides path before after).changes comparator)
    (h : (ofSides path before after).moduleChange? all = some entry) :
    entry.breaking = true ↔ ∃ change ∈ entry.changes, change.breaking = true := by
  cases after with
  | none =>
    cases h
    have hremoved : (∃ change ∈ (ofSides path before none).changes comparator,
        change.breaking = true) ↔ (ofSides path before none).hadExports = true :=
      exists_breaking_iff_of_removed
    rw [← hown] at hremoved
    exact hremoved.symm
  | some newer =>
    cases before with
    | none =>
      cases h
      simp only [Bool.false_eq_true, false_iff, not_exists, not_and, Bool.not_eq_true]
      intro change hchange
      have hmem : change ∈ (ofSides path none (some newer)).changes comparator := by
        rw [← hown]
        exact hchange
      exact breaking_eq_false_of_added hmem
    | some older =>
      dsimp only [moduleChange?, ofSides] at h
      split at h
      · cases h
      · cases h
        exact List.any_eq_true

end ModuleMatch

/-! ## Matched modules of two snapshots -/

namespace Snapshot

variable {older newer : Snapshot}

theorem map_modulePath_matchModules (older newer : Snapshot) :
    (older.matchModules newer).map ModuleMatch.modulePath =
      mergeNames older.paths newer.paths := by
  rw [matchModules, List.map_map]
  exact List.map_id _

theorem modulePath_matchModules_nodup (older newer : Snapshot) :
    ((older.matchModules newer).map ModuleMatch.modulePath).Nodup := by
  rw [map_modulePath_matchModules]
  exact mergeNames_nodup older.paths_nodup newer.paths_nodup

/-- The changes of a matched module stand under its path. -/
theorem modulePath_of_mem_changes {comparator : TypeComparator} {m : ModuleMatch}
    {change : Change} (hm : m ∈ older.matchModules newer)
    (hchange : change ∈ m.changes comparator) : change.modulePath = m.modulePath := by
  obtain ⟨path, _, rfl⟩ := mem_matchModules_iff.mp hm
  exact ModuleMatch.modulePath_of_mem_changes hchange

end Snapshot

/-! ## Main statement -/

namespace Diff

variable {comparator : TypeComparator} {older newer : Snapshot}

theorem changes_between_eq_flatMap (comparator : TypeComparator) (older newer : Snapshot) :
    (between comparator older newer).changes =
      (older.matchModules newer).flatMap (ModuleMatch.changes comparator) :=
  rfl

theorem moduleChanges_between_eq (comparator : TypeComparator) (older newer : Snapshot) :
    (between comparator older newer).moduleChanges =
      (older.matchModules newer).filterMap
        (ModuleMatch.moduleChange? (between comparator older newer).changes) :=
  rfl

/-- The changes of a diff at the path of a module are those that come from the module. -/
theorem filter_modulePath_changes_between {m : ModuleMatch} (hm : m ∈ older.matchModules newer) :
    ((between comparator older newer).changes.filter fun change =>
      change.modulePath == m.modulePath) = m.changes comparator := by
  rw [changes_between_eq_flatMap]
  exact Keyed.filter_flatMap_eq (Snapshot.modulePath_matchModules_nodup older newer)
    (fun m hm change hchange => Snapshot.modulePath_of_mem_changes hm hchange) hm

theorem flatMap_changes_moduleChanges_between :
    (between comparator older newer).moduleChanges.flatMap ModuleChange.changes =
      (between comparator older newer).changes := by
  rw [moduleChanges_between_eq, List.filterMap_eq_flatMap_toList, List.flatMap_assoc]
  conv => rhs; rw [changes_between_eq_flatMap]
  refine List.flatMap_congr fun m hm => ?_
  rw [ModuleMatch.changes_moduleChange?, filter_modulePath_changes_between hm]

theorem modulePath_moduleChanges_between_nodup :
    ((between comparator older newer).moduleChanges.map ModuleChange.modulePath).Nodup := by
  have hpaths := Snapshot.modulePath_matchModules_nodup older newer
  rw [List.Nodup, List.pairwise_map] at hpaths ⊢
  rw [moduleChanges_between_eq, List.pairwise_filterMap]
  refine hpaths.imp fun hdifferent entry hentry entry' hentry' => ?_
  rw [ModuleMatch.modulePath_of_moduleChange? hentry,
    ModuleMatch.modulePath_of_moduleChange? hentry']
  exact hdifferent

/-- An entry of a diff belongs to a matched module and has the changes of its path. -/
theorem mem_moduleChanges_between_iff {entry : ModuleChange} :
    entry ∈ (between comparator older newer).moduleChanges ↔
      ∃ m ∈ older.matchModules newer,
        m.moduleChange? (between comparator older newer).changes = some entry :=
  List.mem_filterMap

theorem breaking_iff_of_mem_moduleChanges {entry : ModuleChange}
    (h : entry ∈ (between comparator older newer).moduleChanges) :
    entry.breaking = true ↔ ∃ change ∈ entry.changes, change.breaking = true := by
  obtain ⟨m, hm, hentry⟩ := mem_moduleChanges_between_iff.mp h
  have hown : ((between comparator older newer).changes.filter fun change =>
      change.modulePath == m.modulePath) = m.changes comparator :=
    filter_modulePath_changes_between hm
  obtain ⟨path, _, rfl⟩ := Snapshot.mem_matchModules_iff.mp hm
  exact ModuleMatch.breaking_iff_of_moduleChange? hown hentry

theorem bump_eq_major_iff :
    (between comparator older newer).bump = .major ↔
      ∃ change ∈ (between comparator older newer).changes, change.breaking = true := by
  rw [← not_iff_not, ← ne_eq, bump_ne_major_iff]
  simp only [not_exists, not_and, Bool.not_eq_true]

/-- The changes of a diff by module are its changes one after the other, each under the
path of its module.  A module breaks callers exactly if one of its changes does, and the
bump is major exactly if some module breaks callers. -/
theorem moduleChanges_between_agree (comparator : TypeComparator) (older newer : Snapshot) :
    let diff := between comparator older newer
    diff.moduleChanges.flatMap ModuleChange.changes = diff.changes ∧
    (diff.moduleChanges.map ModuleChange.modulePath).Nodup ∧
    (∀ entry ∈ diff.moduleChanges, ∀ change ∈ entry.changes,
      change.modulePath = entry.modulePath) ∧
    (∀ entry ∈ diff.moduleChanges,
      entry.breaking = true ↔ ∃ change ∈ entry.changes, change.breaking = true) ∧
    (diff.bump = .major ↔ ∃ entry ∈ diff.moduleChanges, entry.breaking = true) := by
  intro diff
  have hflatten : diff.moduleChanges.flatMap ModuleChange.changes = diff.changes :=
    flatMap_changes_moduleChanges_between
  have hbreaking : ∀ entry ∈ diff.moduleChanges,
      entry.breaking = true ↔ ∃ change ∈ entry.changes, change.breaking = true :=
    fun entry hentry => breaking_iff_of_mem_moduleChanges hentry
  refine ⟨hflatten, modulePath_moduleChanges_between_nodup, ?_, hbreaking, ?_⟩
  · intro entry hentry change hchange
    obtain ⟨m, _, hentry⟩ := mem_moduleChanges_between_iff.mp hentry
    exact ModuleMatch.modulePath_of_mem_changes_moduleChange? hentry hchange
  · rw [bump_eq_major_iff, ← hflatten]
    constructor
    · intro h
      obtain ⟨change, hmem, hbreaks⟩ := h
      obtain ⟨entry, hentry, hchange⟩ := List.mem_flatMap.mp hmem
      exact ⟨entry, hentry, (hbreaking entry hentry).mpr ⟨change, hchange, hbreaks⟩⟩
    · intro h
      obtain ⟨entry, hentry, hbreaks⟩ := h
      obtain ⟨change, hchange, hbreaks⟩ := (hbreaking entry hentry).mp hbreaks
      exact ⟨change, List.mem_flatMap.mpr ⟨entry, hentry, hchange⟩, hbreaks⟩

/-- Of two modules that are gone, the one without exports is listed and breaks nothing,
and neither does a new one; the removed export of the other one makes the bump major. -/
theorem moduleChanges_between_agree_removed :
    let f : Export := { name := "f" }
    let older : Snapshot :=
      ⟨"older", "", "", [⟨"bare", [], "", by simp⟩, ⟨"gone", [f], "", by simp⟩], none, {},
        by simp⟩
    let newer : Snapshot := ⟨"newer", "", "", [⟨"new", [f], "", by simp⟩], none, {}, by simp⟩
    let diff := between .heuristic older newer
    (diff.moduleChanges.map fun entry => (entry.modulePath, entry.breaking)) =
      [("bare", false), ("gone", true), ("new", false)] ∧
    (∃ entry ∈ diff.moduleChanges, entry.modulePath = "gone" ∧
      ∃ change ∈ entry.changes, change.modulePath = "gone" ∧ change.breaking = true) ∧
    diff.bump = .major := by
  intro f older newer diff
  obtain ⟨_, _, hpaths, hbreaking, hbump⟩ := moduleChanges_between_agree .heuristic older newer
  obtain ⟨entry, hentry, hgone, hbreaks⟩ :
      ∃ entry ∈ diff.moduleChanges, entry.modulePath = "gone" ∧ entry.breaking = true := by
    decide +kernel
  obtain ⟨change, hchange, hbreaks'⟩ := (hbreaking entry hentry).mp hbreaks
  refine ⟨by decide +kernel, ⟨entry, hentry, hgone, change, hchange, ?_, hbreaks'⟩, ?_⟩
  · exact (hpaths entry hentry change hchange).trans hgone
  · exact hbump.mpr ⟨entry, hentry, hbreaks⟩

end Diff

end ApiDrift
