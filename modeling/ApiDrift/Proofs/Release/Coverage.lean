import ApiDrift.Proofs.Release.Lookup
import Mathlib.Data.List.Permutation

set_option autoImplicit false

/-!
# Matching leaves nothing out

Matching goes through the module paths of two snapshots and, in each module, through the
export names of both sides.  Since paths and names are distinct on either side, each
comes up once, with what the snapshots have under it.  The changes of a diff keep that
order and have the additions and removals that the keys of the snapshots ask for.
-/

namespace ApiDrift

/-! ## Keys of a snapshot -/

namespace Snapshot

variable {s : Snapshot} {path name : String}

/-- The module paths and names of all exports, in order. -/
def keys (s : Snapshot) : List (String × String) :=
  s.modules.flatMap fun m => m.exportNames.map fun name => (m.path, name)

/-- A module at the path has the export under the name. -/
def Exports (s : Snapshot) (path name : String) (e : Export) : Prop :=
  ∃ m ∈ s.modules, m.path = path ∧ e ∈ m.exports ∧ e.name = name

theorem mem_keys_iff : (path, name) ∈ s.keys ↔ (s.export? path name).isSome = true := by
  simp only [keys, Module.exportNames, List.mem_flatMap, List.mem_map, Prod.mk.injEq,
    exists_exists_and_eq_and, Option.isSome_iff_exists, export?_eq_some_iff]
  constructor
  · rintro ⟨m, hm, e, he, hpath, hname⟩
    exact ⟨e, m, hm, hpath, he, hname⟩
  · rintro ⟨e, m, hm, hpath, he, hname⟩
    exact ⟨m, hm, e, he, hpath, hname⟩

theorem not_mem_keys_iff : (path, name) ∉ s.keys ↔ s.export? path name = none := by
  rw [mem_keys_iff, Option.not_isSome_iff_eq_none]

/-- No path and name is exported twice. -/
theorem keys_nodup (s : Snapshot) : s.keys.Nodup := by
  have hpaths := s.paths_nodup
  rw [List.Nodup, List.pairwise_map] at hpaths
  rw [keys, List.Nodup, List.pairwise_flatMap]
  constructor
  · intro m _
    have hnames : m.exportNames.Pairwise (· ≠ ·) := m.names_nodup
    rw [List.pairwise_map]
    exact hnames.imp fun hdifferent hsame => hdifferent (congrArg Prod.snd hsame)
  · refine hpaths.imp fun hdifferent key hkey key' hkey' hsame => hdifferent ?_
    obtain ⟨_, _, rfl⟩ := List.mem_map.mp hkey
    obtain ⟨_, _, rfl⟩ := List.mem_map.mp hkey'
    exact congrArg Prod.fst hsame

end Snapshot

/-! ## Exact matches -/

/-- A match says of its path and name what two snapshots have under them. -/
structure Match.IsExact (older newer : Snapshot) (entry : Match) : Prop where
  added_iff : entry.status = .added ↔ entry.key ∉ older.keys ∧ entry.key ∈ newer.keys
  removed_iff : entry.status = .removed ↔ entry.key ∈ older.keys ∧ entry.key ∉ newer.keys
  matched_iff : entry.status = .matched ↔ entry.key ∈ older.keys ∧ entry.key ∈ newer.keys
  before_iff : ∀ e, entry.before = some e ↔ older.Exports entry.modulePath entry.name e
  after_iff : ∀ e, entry.after = some e ↔ newer.Exports entry.modulePath entry.name e

/-- A matched module has the names that one of two snapshots exports at its path, in code
point order and each with an exact match. -/
structure ModuleMatch.IsExact (older newer : Snapshot) (m : ModuleMatch) : Prop where
  names_increasing : (m.entries.map Match.name).Pairwise (· < ·)
  mem_names_iff : ∀ name, name ∈ m.entries.map Match.name ↔
    (m.modulePath, name) ∈ older.keys ∨ (m.modulePath, name) ∈ newer.keys
  modulePath_eq : ∀ entry ∈ m.entries, entry.modulePath = m.modulePath
  entries_exact : ∀ entry ∈ m.entries, entry.IsExact older newer

variable {older newer : Snapshot} {path name : String}

theorem Match.status_between_eq_matched_iff :
    (between older newer path name).status = .matched ↔
      (older.export? path name).isSome = true ∧ (newer.export? path name).isSome = true := by
  dsimp only [between, ofSides]
  cases older.export? path name <;> cases newer.export? path name <;> simp

theorem Match.isExact_between
    (h : (older.export? path name).isSome = true ∨ (newer.export? path name).isSome = true) :
    (between older newer path name).IsExact older newer where
  added_iff := status_between_eq_added_iff.trans
    (and_congr Snapshot.not_mem_keys_iff Snapshot.mem_keys_iff).symm
  removed_iff := by
    -- an entry without a newer side is a removal, and the older side is then not missing
    refine status_between_eq_removed_iff.trans (Iff.trans ⟨fun hnew => ⟨?_, hnew⟩, And.right⟩
      (and_congr Snapshot.mem_keys_iff Snapshot.not_mem_keys_iff).symm)
    exact h.resolve_right (by simp [hnew])
  matched_iff := status_between_eq_matched_iff.trans
    (and_congr Snapshot.mem_keys_iff Snapshot.mem_keys_iff).symm
  before_iff _ := Snapshot.export?_eq_some_iff
  after_iff _ := Snapshot.export?_eq_some_iff

/-! ## Names in order -/

theorem sortNames_sorted (names : List String) : (sortNames names).Pairwise (· ≤ ·) := by
  have hsorted : (sortNames names).Pairwise fun a b => decide (a ≤ b) = true := by
    refine List.pairwise_mergeSort (fun a b c hab hbc => ?_) (fun a b => ?_) names
    · exact decide_eq_true (String.le_trans (of_decide_eq_true hab) (of_decide_eq_true hbc))
    · rw [Bool.or_eq_true, decide_eq_true_eq, decide_eq_true_eq]
      exact String.le_total a b
  exact hsorted.imp of_decide_eq_true

theorem sortNames_increasing {names : List String} (h : names.Nodup) :
    (sortNames names).Pairwise (· < ·) := by
  refine ((sortNames_sorted names).and (sortNames_nodup h)).imp fun {a b} hab => ?_
  by_contra hlt
  exact hab.2 (String.le_antisymm hab.1 (String.not_lt.mp hlt))

theorem ModuleMatch.isExact_of_mem_matchModules {m : ModuleMatch}
    (hm : m ∈ older.matchModules newer) : m.IsExact older newer := by
  obtain ⟨path, _, rfl⟩ := Snapshot.mem_matchModules_iff.mp hm
  have hentry : ∀ entry ∈ (ofSides path (older.module? path) (newer.module? path)).entries,
      ∃ name, ((older.export? path name).isSome = true ∨
        (newer.export? path name).isSome = true) ∧ Match.between older newer path name = entry := by
    intro entry hmem
    obtain ⟨name, hname, rfl⟩ := mem_entries_ofSides_iff.mp hmem
    rw [← Snapshot.isSome_export?_iff, ← Snapshot.isSome_export?_iff] at hname
    exact ⟨name, hname, rfl⟩
  refine ⟨?_, fun name => ?_, fun entry hmem => modulePath_of_mem_entries hmem, ?_⟩
  · rw [map_name_entries_ofSides]
    exact sortNames_increasing (mergeNames_nodup (exportNames_nodup _) (exportNames_nodup _))
  · rw [map_name_entries_ofSides, mem_sortNames_iff, mem_mergeNames_iff, Snapshot.mem_keys_iff,
      Snapshot.mem_keys_iff, Snapshot.isSome_export?_iff, Snapshot.isSome_export?_iff]
    rfl
  · intro entry hmem
    obtain ⟨name, hside, rfl⟩ := hentry entry hmem
    exact Match.isExact_between hside

/-! ## Changes in order -/

/-- The strict order of keys by the place of the path among given ones, then by name. -/
def Precedes (paths : List String) (key key' : String × String) : Prop :=
  paths.idxOf key.1 < paths.idxOf key'.1 ∨ key.1 = key'.1 ∧ key.2 < key'.2

namespace Diff

variable {comparator : TypeComparator}

/-- The changes of a diff keep the order of the modules and, within a module, that of the
names. -/
theorem key_changes_between_pairwise (comparator : TypeComparator) (older newer : Snapshot) :
    ((between comparator older newer).changes.map Change.key).Pairwise
      (Precedes ((older.matchModules newer).map ModuleMatch.modulePath)) := by
  have hplaces := pairwise_idxOf_lt (Snapshot.modulePath_matchModules_nodup older newer)
  rw [List.pairwise_map] at hplaces ⊢
  rw [changes_between_eq_flatMap, List.pairwise_flatMap]
  constructor
  · -- within a module the paths are the same and the names increase
    intro m hm
    have hexact := ModuleMatch.isExact_of_mem_matchModules hm
    have hnames := hexact.names_increasing
    rw [List.pairwise_map] at hnames
    rw [ModuleMatch.changes, List.pairwise_filterMap]
    refine hnames.imp_of_mem ?_
    intro entry entry' hentry hentry' hlt change hchange change' hchange'
    rw [Match.key_of_change? hchange, Match.key_of_change? hchange']
    refine .inr ⟨?_, hlt⟩
    exact (hexact.modulePath_eq entry hentry).trans (hexact.modulePath_eq entry' hentry').symm
  · -- across modules the path of the earlier one comes first
    refine hplaces.imp_of_mem fun {m m'} hm hm' hlt change hchange change' hchange' => .inl ?_
    rw [Change.key, Change.key, Snapshot.modulePath_of_mem_changes hm hchange,
      Snapshot.modulePath_of_mem_changes hm' hchange']
    exact hlt

/-! ## Changes on one side -/

theorem mem_keysOf_added_iff_mem_keys {key : String × String} :
    key ∈ (between comparator older newer).keysOf .added ↔
      key ∉ older.keys ∧ key ∈ newer.keys := by
  obtain ⟨path, name⟩ := key
  rw [mem_keysOf_added_iff, Snapshot.not_mem_keys_iff, Snapshot.mem_keys_iff]

theorem mem_keysOf_removed_iff_mem_keys {key : String × String} :
    key ∈ (between comparator older newer).keysOf .removed ↔
      key ∈ older.keys ∧ key ∉ newer.keys := by
  obtain ⟨path, name⟩ := key
  rw [mem_keysOf_removed_iff, Snapshot.not_mem_keys_iff, Snapshot.mem_keys_iff, and_comm]

/-! ## Main statement -/

/-- Matching goes through the paths of the older snapshot and those only the newer one has,
each once, and matches in each module the names that either side exports, in code point
order and with what the two sides have under them.  So the changes of a diff have distinct
keys, additions and removals exactly at the keys of one side only, and the order of the
modules, then of the names. -/
theorem matchModules_covers (comparator : TypeComparator) (older newer : Snapshot) :
    let matched := older.matchModules newer
    let paths := matched.map ModuleMatch.modulePath
    let diff := between comparator older newer
    (paths = older.paths ++ newer.paths.filter (· ∉ older.paths) ∧ paths.Nodup) ∧
    (∀ m ∈ matched, m.IsExact older newer) ∧
    (diff.changes.map Change.key).Nodup ∧
    (∀ change ∈ diff.changes, change.key ∈ older.keys ∨ change.key ∈ newer.keys) ∧
    (∀ key, key ∈ diff.keysOf .added ↔ key ∉ older.keys ∧ key ∈ newer.keys) ∧
    (∀ key, key ∈ diff.keysOf .removed ↔ key ∈ older.keys ∧ key ∉ newer.keys) ∧
    (diff.changes.map Change.key).Pairwise (Precedes paths) := by
  intro matched paths diff
  refine ⟨⟨?_, Snapshot.modulePath_matchModules_nodup older newer⟩,
    fun m hm => ModuleMatch.isExact_of_mem_matchModules hm,
    key_changes_between_nodup comparator older newer, ?_,
    fun key => mem_keysOf_added_iff_mem_keys, fun key => mem_keysOf_removed_iff_mem_keys,
    key_changes_between_pairwise comparator older newer⟩
  · have hpaths : paths = mergeNames older.paths newer.paths :=
      Snapshot.map_modulePath_matchModules older newer
    rw [hpaths, mergeNames]
    refine congrArg (older.paths ++ ·) (List.filter_congr fun path _ => ?_)
    rw [List.contains_eq_mem, decide_not]
  · intro change hchange
    obtain ⟨path, name, hside, hmatch⟩ := mem_changes_between_iff.mp hchange
    rw [← Snapshot.mem_keys_iff, ← Snapshot.mem_keys_iff] at hside
    rw [Match.key_of_change? hmatch]
    exact hside

/-- A module on both sides, with names out of order, next to a module that is gone and a
new one. -/
theorem matchModules_covers_mixed :
    let e (name : String) : Export := { name := name }
    let older : Snapshot :=
      ⟨"older", "", "", [⟨"m", [e "b", e "a"], "", by simp [e]⟩, ⟨"gone", [e "x"], "", by simp⟩],
        none, {}, by simp⟩
    let newer : Snapshot :=
      ⟨"newer", "", "", [⟨"new", [e "y"], "", by simp⟩, ⟨"m", [e "c", e "a"], "", by simp [e]⟩],
        none, {}, by simp⟩
    let m : ModuleMatch := .ofSides "m" (older.module? "m") (newer.module? "m")
    let diff := between .heuristic older newer
    (m ∈ older.matchModules newer ∧ m.IsExact older newer) ∧
    (m.entries.map fun entry => (entry.name, entry.status)) =
      [("a", .matched), ("b", .removed), ("c", .added)] ∧
    ("new", "y") ∈ diff.keysOf .added ∧
    ("gone", "x") ∈ diff.keysOf .removed ∧
    diff.changes.map Change.key = [("m", "b"), ("m", "c"), ("gone", "x"), ("new", "y")] := by
  intro e older newer m diff
  have hm : m ∈ older.matchModules newer :=
    Snapshot.mem_matchModules_iff.mpr ⟨"m", by decide +kernel, rfl⟩
  obtain ⟨_, hexact, _, _, hadded, hremoved, _⟩ := matchModules_covers .heuristic older newer
  refine ⟨⟨hm, hexact m hm⟩, by cbv, ?_, ?_, by cbv⟩
  · exact (hadded ("new", "y")).mpr (by decide +kernel)
  · exact (hremoved ("gone", "x")).mpr (by decide +kernel)

end Diff

end ApiDrift
