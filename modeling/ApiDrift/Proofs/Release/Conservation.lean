import ApiDrift.Proofs.Release.Coverage
import Mathlib.Algebra.Ring.Int.Defs

set_option autoImplicit false

/-!
# Counts along a history

A snapshot counts its modules and exports, and a diff counts what it adds and removes.
The two agree: the counts of a later snapshot are those of an earlier one with all that
was added in between and without all that was removed.  Within one diff the counts by
kind make up the total, and the breaking changes are the removals and some modifications.
-/

namespace ApiDrift

/-! ## Totals of a snapshot -/

theorem Snapshot.totalExports_eq_length_keys (s : Snapshot) :
    (Statistics.ofModules s.modules).totalExports = s.keys.length := by
  simp [Statistics.ofModules, keys, Module.exportNames, List.length_flatMap]

theorem Snapshot.totalModules_eq_length_paths (s : Snapshot) :
    (Statistics.ofModules s.modules).totalModules = s.paths.length := by
  rw [Statistics.ofModules, paths, List.length_map]

/-! ## Modules added and removed -/

theorem Snapshot.mem_paths_iff {s : Snapshot} {path : String} :
    path ∈ s.paths ↔ (s.module? path).isSome = true := by
  rw [Option.isSome_iff_ne_none, ne_eq, module?_eq_none_iff, not_not]

/-- A path of either snapshot is matched. -/
theorem Snapshot.ofSides_mem_matchModules (older newer : Snapshot) {path : String}
    (h : path ∈ older.paths ∨ path ∈ newer.paths) :
    ModuleMatch.ofSides path (older.module? path) (newer.module? path) ∈
      older.matchModules newer :=
  mem_matchModules_iff.mpr ⟨path, h, rfl⟩

namespace ModuleMatch

variable {older newer : Snapshot} {m : ModuleMatch}

theorem status_eq_added_iff (hm : m ∈ older.matchModules newer) :
    m.status = .added ↔ m.modulePath ∉ older.paths ∧ m.modulePath ∈ newer.paths := by
  obtain ⟨path, _, rfl⟩ := Snapshot.mem_matchModules_iff.mp hm
  change _ ↔ path ∉ older.paths ∧ path ∈ newer.paths
  rw [← Snapshot.module?_eq_none_iff, Snapshot.mem_paths_iff]
  dsimp only [ofSides]
  cases older.module? path <;> cases newer.module? path <;> simp

theorem status_eq_removed_iff (hm : m ∈ older.matchModules newer) :
    m.status = .removed ↔ m.modulePath ∈ older.paths ∧ m.modulePath ∉ newer.paths := by
  obtain ⟨path, hpath, rfl⟩ := Snapshot.mem_matchModules_iff.mp hm
  change _ ↔ path ∈ older.paths ∧ path ∉ newer.paths
  rw [Snapshot.mem_paths_iff, Snapshot.mem_paths_iff] at hpath
  rw [← Snapshot.module?_eq_none_iff, Snapshot.mem_paths_iff]
  revert hpath
  dsimp only [ofSides]
  cases older.module? path <;> cases newer.module? path <;> simp

/-- A module on one side only is always listed. -/
theorem exists_moduleChange?_of_ne_changed (all : List Change) (h : m.status ≠ .changed) :
    ∃ entry, m.moduleChange? all = some entry := by
  unfold moduleChange?
  cases hstatus : m.status with
  | added => exact ⟨_, rfl⟩
  | removed => exact ⟨_, rfl⟩
  | changed => exact absurd hstatus h

end ModuleMatch

namespace Diff

variable {comparator : TypeComparator} {older newer : Snapshot} {path : String}

/-- The paths of the module changes of a status. -/
def pathsOf (diff : Diff) (status : ModuleStatus) : List String :=
  (diff.moduleChanges.filter fun entry => entry.status = status).map ModuleChange.modulePath

theorem pathsOf_between_nodup (comparator : TypeComparator) (older newer : Snapshot)
    (status : ModuleStatus) : ((between comparator older newer).pathsOf status).Nodup :=
  modulePath_moduleChanges_between_nodup.sublist (List.filter_sublist.map _)

theorem mem_pathsOf_between_iff {status : ModuleStatus} (h : status ≠ .changed) :
    path ∈ (between comparator older newer).pathsOf status ↔
      ∃ m ∈ older.matchModules newer, m.modulePath = path ∧ m.status = status := by
  simp only [pathsOf, List.mem_map, List.mem_filter, decide_eq_true_eq,
    mem_moduleChanges_between_iff]
  constructor
  · rintro ⟨entry, ⟨⟨m, hm, hentry⟩, rfl⟩, rfl⟩
    exact ⟨m, hm, (ModuleMatch.modulePath_of_moduleChange? hentry).symm,
      (ModuleMatch.status_of_moduleChange? hentry).symm⟩
  · rintro ⟨m, hm, rfl, rfl⟩
    obtain ⟨entry, hentry⟩ := ModuleMatch.exists_moduleChange?_of_ne_changed
      (between comparator older newer).changes h
    exact ⟨entry, ⟨⟨m, hm, hentry⟩, ModuleMatch.status_of_moduleChange? hentry⟩,
      ModuleMatch.modulePath_of_moduleChange? hentry⟩

/-- The modules that only the newer snapshot has are added. -/
theorem mem_pathsOf_added_iff :
    path ∈ (between comparator older newer).pathsOf .added ↔
      path ∉ older.paths ∧ path ∈ newer.paths := by
  rw [mem_pathsOf_between_iff (by decide)]
  constructor
  · rintro ⟨m, hm, rfl, hstatus⟩
    exact (ModuleMatch.status_eq_added_iff hm).mp hstatus
  · intro h
    have hm := Snapshot.ofSides_mem_matchModules older newer (.inr h.2)
    exact ⟨_, hm, rfl, (ModuleMatch.status_eq_added_iff hm).mpr h⟩

/-- The modules that only the older snapshot has are removed. -/
theorem mem_pathsOf_removed_iff :
    path ∈ (between comparator older newer).pathsOf .removed ↔
      path ∈ older.paths ∧ path ∉ newer.paths := by
  rw [mem_pathsOf_between_iff (by decide)]
  constructor
  · rintro ⟨m, hm, rfl, hstatus⟩
    exact (ModuleMatch.status_eq_removed_iff hm).mp hstatus
  · intro h
    have hm := Snapshot.ofSides_mem_matchModules older newer (.inl h.1)
    exact ⟨_, hm, rfl, (ModuleMatch.status_eq_removed_iff hm).mpr h⟩

/-! ## What a diff gains -/

/-- How many exports a diff adds, less those that it removes. -/
def netExports (diff : Diff) : Int := diff.tally.additions - diff.tally.removals

/-- How many modules a diff adds, less those that it removes. -/
def netModules (diff : Diff) : Int :=
  (diff.moduleChanges.countP fun entry => entry.status = .added : Nat) -
    (diff.moduleChanges.countP fun entry => entry.status = .removed : Nat)

theorem length_keysOf (diff : Diff) (kind : ChangeKind) :
    (diff.keysOf kind).length = Tally.ofKind kind diff.changes := by
  rw [keysOf, List.length_map, Tally.ofKind, List.countP_eq_length_filter]

theorem length_pathsOf (diff : Diff) (status : ModuleStatus) :
    (diff.pathsOf status).length =
      diff.moduleChanges.countP fun entry => entry.status = status := by
  rw [pathsOf, List.length_map, List.countP_eq_length_filter]

/-- A diff gains the exports by which the newer snapshot has more than the older one. -/
theorem netExports_between (comparator : TypeComparator) (older newer : Snapshot) :
    (between comparator older newer).netExports =
      (Statistics.ofModules newer.modules).totalExports -
        (Statistics.ofModules older.modules).totalExports := by
  have hexchange : older.keys.length + ((between comparator older newer).keysOf .added).length =
      newer.keys.length + ((between comparator older newer).keysOf .removed).length :=
    length_add_length_of_exchange older.keys_nodup newer.keys_nodup
      (keysOf_between_nodup comparator older newer .added)
      (keysOf_between_nodup comparator older newer .removed)
      (fun _ => mem_keysOf_added_iff_mem_keys) (fun _ => mem_keysOf_removed_iff_mem_keys)
  rw [length_keysOf, length_keysOf] at hexchange
  rw [Snapshot.totalExports_eq_length_keys, Snapshot.totalExports_eq_length_keys]
  change (Tally.ofKind .added (between comparator older newer).changes : Int) -
    (Tally.ofKind .removed (between comparator older newer).changes : Int) = _
  omega

/-- A diff gains the modules by which the newer snapshot has more than the older one. -/
theorem netModules_between (comparator : TypeComparator) (older newer : Snapshot) :
    (between comparator older newer).netModules =
      (Statistics.ofModules newer.modules).totalModules -
        (Statistics.ofModules older.modules).totalModules := by
  have hexchange : older.paths.length + ((between comparator older newer).pathsOf .added).length =
      newer.paths.length + ((between comparator older newer).pathsOf .removed).length :=
    length_add_length_of_exchange older.paths_nodup newer.paths_nodup
      (pathsOf_between_nodup comparator older newer .added)
      (pathsOf_between_nodup comparator older newer .removed)
      (fun _ => mem_pathsOf_added_iff) (fun _ => mem_pathsOf_removed_iff)
  rw [length_pathsOf, length_pathsOf] at hexchange
  rw [Snapshot.totalModules_eq_length_paths, Snapshot.totalModules_eq_length_paths, netModules]
  omega

/-! ## Chains -/

/-- The diffs between consecutive snapshots of a history. -/
def chain (comparator : TypeComparator) : Snapshot → List Snapshot → List Diff
  | _, [] => []
  | older, newer :: later => between comparator older newer :: chain comparator newer later

/-- If every diff gains what a total grows by, a chain of diffs gains what the total grows
by from its first snapshot to its last. -/
theorem sum_map_chain {gain : Diff → Int} {total : Snapshot → Int}
    (hstep : ∀ older newer, gain (between comparator older newer) = total newer - total older)
    (first : Snapshot) (later : List Snapshot) :
    ((chain comparator first later).map gain).sum = total (later.getLastD first) - total first := by
  induction later generalizing first with
  | nil => simp [chain]
  | cons next later ih =>
    -- the rest of the chain starts where its first diff ends, so the total of `next` cancels
    rw [chain, List.map_cons, List.sum_cons, hstep, ih, List.getLastD_cons]
    omega

theorem exists_between_of_mem_chain {first : Snapshot} {later : List Snapshot} {diff : Diff}
    (h : diff ∈ chain comparator first later) :
    ∃ older newer, between comparator older newer = diff := by
  induction later generalizing first with
  | nil => exact absurd h List.not_mem_nil
  | cons next later ih =>
    rcases List.mem_cons.mp h with rfl | hmem
    · exact ⟨first, next, rfl⟩
    · exact ih hmem

end Diff

/-! ## Counts within a diff -/

/-- The counts of a tally by kind make up its total, with deprecations among the
modifications, and the breaking changes are all removals and some modifications. -/
structure Tally.Balanced (t : Tally) : Prop where
  total_eq : t.additions + t.removals + t.modifications = t.totalChanges
  deprecations_le : t.deprecations ≤ t.modifications
  removals_le : t.removals ≤ t.breakingChanges
  breakingChanges_le : t.breakingChanges ≤ t.removals + t.modifications

/-- Every change is of one of the four kinds. -/
theorem Tally.sum_ofKind (changes : List Change) :
    ofKind .added changes + ofKind .removed changes +
      (ofKind .modified changes + ofKind .deprecated changes) = changes.length := by
  induction changes with
  | nil => rfl
  | cons change changes ih =>
    simp only [ofKind, List.countP_cons, List.length_cons] at ih ⊢
    cases change.kind <;> simp <;> omega

/-- An addition breaks nothing and a removal always breaks callers. -/
theorem Match.breaking_of_change? {comparator : TypeComparator} {entry : Match} {change : Change}
    (h : entry.change? comparator = some change) :
    (change.kind = .added → change.breaking = false) ∧
      (change.kind = .removed → change.breaking = true) := by
  cases hstatus : entry.status with
  | added =>
    rw [change?, hstatus] at h
    cases h
    simp [addition, Detail.breaking]
  | removed =>
    rw [change?, hstatus] at h
    cases h
    simp [removal, Detail.breaking]
  | matched =>
    rcases kind_of_change?_of_matched hstatus h with hkind | hkind <;> simp [hkind]

namespace Diff

theorem tally_between_balanced (comparator : TypeComparator) (older newer : Snapshot) :
    (between comparator older newer).tally.Balanced := by
  have hbreaking : ∀ change ∈ (between comparator older newer).changes,
      (change.kind = .added → change.breaking = false) ∧
        (change.kind = .removed → change.breaking = true) := by
    intro change hchange
    obtain ⟨_, _, _, hmatch⟩ := mem_changes_between_iff.mp hchange
    exact Match.breaking_of_change? hmatch
  have htally : (between comparator older newer).tally =
      .ofChanges (between comparator older newer).changes
        (between comparator older newer).moduleChanges := rfl
  rw [htally]
  generalize (between comparator older newer).changes = changes at hbreaking ⊢
  have htotal := Tally.sum_ofKind changes
  refine ⟨htotal, Nat.le_add_left _ _, ?_, ?_⟩
  · refine List.countP_mono_left fun change hchange hkind => ?_
    exact (hbreaking change hchange).2 (of_decide_eq_true hkind)
  · -- what breaks is not an addition, and there are only additions besides the right side
    have hothers : changes.countP Change.breaking ≤
        changes.countP fun change => ¬ change.kind = .added := by
      refine List.countP_mono_left fun change hchange hbreaks => decide_eq_true fun hkind => ?_
      rw [(hbreaking change hchange).1 hkind] at hbreaks
      exact Bool.false_ne_true hbreaks
    have hparts : changes.length = Tally.ofKind .added changes +
        changes.countP fun change => ¬ change.kind = .added := by
      rw [List.length_eq_countP_add_countP fun change => change.kind = .added, Tally.ofKind]
      simp
    change changes.countP Change.breaking ≤ Tally.ofKind .removed changes +
      (Tally.ofKind .modified changes + Tally.ofKind .deprecated changes)
    omega

/-! ## Main statement -/

/-- Over a history, the exports and modules added less those removed are the difference of
the totals of the last and the first snapshot.  The tally of every diff is balanced. -/
theorem chain_conserves (comparator : TypeComparator) (first : Snapshot) (later : List Snapshot) :
    let diffs := chain comparator first later
    let before := Statistics.ofModules first.modules
    let after := Statistics.ofModules (later.getLastD first).modules
    (diffs.map netExports).sum = after.totalExports - before.totalExports ∧
    (diffs.map netModules).sum = after.totalModules - before.totalModules ∧
    ∀ diff ∈ diffs, diff.tally.Balanced := by
  intro diffs before after
  refine ⟨sum_map_chain (netExports_between comparator) first later,
    sum_map_chain (netModules_between comparator) first later, fun diff hdiff => ?_⟩
  obtain ⟨older, newer, rfl⟩ := exists_between_of_mem_chain hdiff
  exact tally_between_balanced comparator older newer

/-- Two releases: one adds an export and an empty module, the next one drops a module with
its exports, fills the empty one and brings in another. -/
theorem chain_conserves_two_releases :
    let e (name : String) : Export := { name := name }
    let a : Module := ⟨"a", [e "f"], "", by simp⟩
    let a' : Module := ⟨"a", [e "f", e "g"], "", by simp [e]⟩
    let b : Module := ⟨"b", [], "", by simp⟩
    let b' : Module := ⟨"b", [e "h"], "", by simp⟩
    let c : Module := ⟨"c", [e "i", e "j"], "", by simp [e]⟩
    let first : Snapshot := ⟨"first", "", "", [a], none, {}, by simp⟩
    let second : Snapshot := ⟨"second", "", "", [a', b], none, {}, by simp [a', b]⟩
    let third : Snapshot := ⟨"third", "", "", [b', c], none, {}, by simp [b', c]⟩
    let diffs := chain .heuristic first [second, third]
    let last := between .heuristic second third
    (diffs.map netExports = [1, 1] ∧ (diffs.map netExports).sum = 3 - 1) ∧
    (diffs.map netModules = [1, 0] ∧ (diffs.map netModules).sum = 2 - 1) ∧
    last ∈ diffs ∧ last.tally.Balanced := by
  intro e a a' b b' c first second third diffs last
  obtain ⟨hexports, hmodules, hbalanced⟩ := chain_conserves .heuristic first [second, third]
  have hlast : last ∈ diffs := List.mem_cons_of_mem _ List.mem_cons_self
  exact ⟨⟨by cbv, hexports⟩, ⟨by cbv, hmodules⟩, hlast, hbalanced last hlast⟩

end Diff

end ApiDrift
