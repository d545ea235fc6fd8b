import ApiDrift.Proofs.Signature.Pairing
import ApiDrift.Release.Diff

set_option autoImplicit false

/-!
# The changes of a diff, export by export

A diff holds the changes of the matches of all exports, and there is one match for
every path and name that either snapshot has.  So a change is found by looking the
export up on both sides, whatever the modules are matched by.
-/

namespace ApiDrift

/-! ## Exports of a snapshot -/

namespace Snapshot

/-- The export of a name in the module at a path. -/
def export? (s : Snapshot) (path name : String) : Option Export :=
  (s.module? path).bind (·.export? name)

/-- No symbol of a snapshot has two parameters of one name. -/
def HasDistinctNames (s : Snapshot) : Prop :=
  ∀ m ∈ s.modules, ∀ e ∈ m.exports, ∀ symbol ∈ e.symbol,
    Signature.HasDistinctNames symbol.parameters

instance (s : Snapshot) : Decidable s.HasDistinctNames :=
  inferInstanceAs (Decidable (∀ m ∈ s.modules, ∀ e ∈ m.exports, ∀ symbol ∈ e.symbol, _))

theorem export?_eq_some_iff {s : Snapshot} {path name : String} {e : Export} :
    s.export? path name = some e ↔
      ∃ m ∈ s.modules, m.path = path ∧ e ∈ m.exports ∧ e.name = name := by
  simp only [export?, Option.bind_eq_some_iff, module?_eq_some_iff, Module.export?_eq_some_iff,
    and_assoc]

theorem HasDistinctNames.of_export? {s : Snapshot} (h : s.HasDistinctNames) {path name : String}
    {e : Export} (he : s.export? path name = some e) {symbol : Symbol}
    (hsymbol : e.symbol = some symbol) : Signature.HasDistinctNames symbol.parameters := by
  obtain ⟨m, hm, _, hmem, _⟩ := export?_eq_some_iff.mp he
  exact h m hm e hmem symbol hsymbol

theorem isSome_export?_iff {s : Snapshot} {path name : String} :
    (s.export? path name).isSome = true ↔
      name ∈ ModuleMatch.exportNames (s.module? path) := by
  unfold export? ModuleMatch.exportNames
  cases s.module? path with
  | none => simp
  | some m =>
    rw [Option.bind_some, Option.isSome_iff_ne_none, ne_eq, Module.export?_eq_none_iff, not_not]
    rfl

theorem mem_paths_of_isSome_export? {s : Snapshot} {path name : String}
    (h : (s.export? path name).isSome = true) : path ∈ s.paths := by
  by_contra hmissing
  rw [export?, module?_eq_none_iff.mpr hmissing] at h
  simp at h

end Snapshot

/-! ## Matches -/

/-- The match of a path and a name between two snapshots. -/
def Match.between (older newer : Snapshot) (path name : String) : Match :=
  .ofSides path name (older.export? path name) (newer.export? path name)

theorem ModuleMatch.mem_entries_ofSides_iff {path : String} {before after : Option Module}
    {entry : Match} :
    entry ∈ (ofSides path before after).entries ↔
      ∃ name, (name ∈ exportNames before ∨ name ∈ exportNames after) ∧
        Match.ofSides path name (before.bind (·.export? name)) (after.bind (·.export? name)) =
          entry := by
  simp only [ofSides, matchExports, List.mem_map, mem_sortNames_iff, mem_mergeNames_iff]

namespace Snapshot

variable {older newer : Snapshot}

theorem mem_matchModules_iff {m : ModuleMatch} :
    m ∈ older.matchModules newer ↔
      ∃ path, (path ∈ older.paths ∨ path ∈ newer.paths) ∧
        ModuleMatch.ofSides path (older.module? path) (newer.module? path) = m := by
  simp only [matchModules, List.mem_map, mem_mergeNames_iff]

/-- The matches of all exports of two snapshots, module by module. -/
def matchExports (older newer : Snapshot) : List Match :=
  (older.matchModules newer).flatMap ModuleMatch.entries

/-- There is a match for every path and name that one of the snapshots has. -/
theorem mem_matchExports_iff {entry : Match} :
    entry ∈ older.matchExports newer ↔
      ∃ path name, ((older.export? path name).isSome = true ∨
          (newer.export? path name).isSome = true) ∧
        Match.between older newer path name = entry := by
  simp only [matchExports, List.mem_flatMap, mem_matchModules_iff, isSome_export?_iff]
  constructor
  · intro h
    obtain ⟨m, ⟨path, _, rfl⟩, hentry⟩ := h
    obtain ⟨name, hname, rfl⟩ := ModuleMatch.mem_entries_ofSides_iff.mp hentry
    exact ⟨path, name, hname, rfl⟩
  · intro h
    obtain ⟨path, name, hname, rfl⟩ := h
    have hpath : path ∈ older.paths ∨ path ∈ newer.paths := by
      rcases hname with hold | hnew
      · exact .inl (mem_paths_of_isSome_export? (isSome_export?_iff.mpr hold))
      · exact .inr (mem_paths_of_isSome_export? (isSome_export?_iff.mpr hnew))
    exact ⟨_, ⟨path, hpath, rfl⟩, ModuleMatch.mem_entries_ofSides_iff.mpr ⟨name, hname, rfl⟩⟩

end Snapshot

namespace Match

variable {comparator : TypeComparator} {older newer : Snapshot} {path name : String}
  {old new : Export}

theorem status_between_eq_added_iff :
    (between older newer path name).status = .added ↔
      older.export? path name = none ∧ (newer.export? path name).isSome = true := by
  dsimp only [between, ofSides]
  cases older.export? path name <;> cases newer.export? path name <;> simp

theorem status_between_eq_removed_iff :
    (between older newer path name).status = .removed ↔ newer.export? path name = none := by
  dsimp only [between, ofSides]
  cases older.export? path name <;> cases newer.export? path name <;> simp

theorem status_between_of_matched (hold : older.export? path name = some old)
    (hnew : newer.export? path name = some new) :
    (between older newer path name).status = .matched := by
  rw [between, hold, hnew, ofSides]

/-- An export that the newer snapshot does not have is a removal. -/
theorem change?_between_of_removed (hnew : newer.export? path name = none) :
    (between older newer path name).change? comparator =
      some (between older newer path name).removal := by
  rw [change?, status_between_eq_removed_iff.mpr hnew]

theorem versions?_eq_some_iff {entry : Match} {before after : Symbol} :
    entry.versions? = some (before, after) ↔
      entry.before.bind Export.symbol = some before ∧
        entry.after.bind Export.symbol = some after := by
  unfold versions?
  cases entry.before.bind Export.symbol <;> cases entry.after.bind Export.symbol <;> simp

theorem versions?_eq_none_iff {entry : Match} :
    entry.versions? = none ↔
      entry.before.bind Export.symbol = none ∨ entry.after.bind Export.symbol = none := by
  unfold versions?
  cases entry.before.bind Export.symbol <;> cases entry.after.bind Export.symbol <;> simp

theorem versions?_between_eq_some_iff (hold : older.export? path name = some old)
    (hnew : newer.export? path name = some new) {before after : Symbol} :
    (between older newer path name).versions? = some (before, after) ↔
      old.symbol = some before ∧ new.symbol = some after := by
  rw [versions?_eq_some_iff, between, hold, hnew, ofSides, Option.bind_some, Option.bind_some]

/-- An export of both snapshots is a change exactly if both versions of its symbol are
known and differ. -/
theorem change?_between_of_matched (hold : older.export? path name = some old)
    (hnew : newer.export? path name = some new) {change : Change} :
    (between older newer path name).change? comparator = some change ↔
      ∃ before after, old.symbol = some before ∧ new.symbol = some after ∧
        Signature.compareSymbols comparator before after ≠ [] ∧
        (between older newer path name).modification before after
          (Signature.compareSymbols comparator before after) = change := by
  simp only [change?, status_between_of_matched hold hnew, Option.bind_eq_some_iff, Prod.exists,
    versions?_between_eq_some_iff hold hnew, and_assoc]
  refine exists_congr fun before => exists_congr fun after => ?_
  refine and_congr_right fun _ => and_congr_right fun _ => ?_
  cases Signature.compareSymbols comparator before after <;> simp

end Match

/-! ## Changes -/

namespace Diff

variable {comparator : TypeComparator} {older newer : Snapshot}

theorem changes_between_eq (comparator : TypeComparator) (older newer : Snapshot) :
    (between comparator older newer).changes =
      (older.matchExports newer).filterMap fun entry => entry.change? comparator := by
  rw [Snapshot.matchExports, List.filterMap_flatMap]
  rfl

/-- The changes of a diff are those of the matches of all paths and names. -/
theorem mem_changes_between_iff {change : Change} :
    change ∈ (between comparator older newer).changes ↔
      ∃ path name, ((older.export? path name).isSome = true ∨
          (newer.export? path name).isSome = true) ∧
        (Match.between older newer path name).change? comparator = some change := by
  rw [changes_between_eq, List.mem_filterMap]
  constructor
  · intro h
    obtain ⟨entry, hentry, hchange⟩ := h
    obtain ⟨path, name, hside, rfl⟩ := Snapshot.mem_matchExports_iff.mp hentry
    exact ⟨path, name, hside, hchange⟩
  · intro h
    obtain ⟨path, name, hside, hchange⟩ := h
    exact ⟨_, Snapshot.mem_matchExports_iff.mpr ⟨path, name, hside, rfl⟩, hchange⟩

theorem removal_mem_changes_between {path name : String} {old : Export}
    (hold : older.export? path name = some old) (hnew : newer.export? path name = none) :
    (Match.between older newer path name).removal ∈ (between comparator older newer).changes := by
  refine mem_changes_between_iff.mpr ⟨path, name, .inl ?_, ?_⟩
  · rw [hold, Option.isSome_some]
  · exact Match.change?_between_of_removed hnew

theorem modification_mem_changes_between {path name : String} {old new : Export}
    {before after : Symbol} (hold : older.export? path name = some old)
    (hnew : newer.export? path name = some new) (hbefore : old.symbol = some before)
    (hafter : new.symbol = some after)
    (hdiffer : Signature.compareSymbols comparator before after ≠ []) :
    (Match.between older newer path name).modification before after
        (Signature.compareSymbols comparator before after) ∈
      (between comparator older newer).changes := by
  refine mem_changes_between_iff.mpr ⟨path, name, .inl ?_, ?_⟩
  · rw [hold, Option.isSome_some]
  · refine (Match.change?_between_of_matched hold hnew).mpr ?_
    exact ⟨before, after, hbefore, hafter, hdiffer, rfl⟩

/-- A bump is not major exactly if no change breaks callers. -/
theorem bump_ne_major_iff :
    (between comparator older newer).bump ≠ .major ↔
      ∀ change ∈ (between comparator older newer).changes, change.breaking = false := by
  change Bump.ofChanges (between comparator older newer).changes ≠ .major ↔ _
  generalize (between comparator older newer).changes = changes
  unfold Bump.ofChanges
  cases hany : changes.any Change.breaking with
  | true =>
    obtain ⟨change, hmem, hbreaking⟩ := List.any_eq_true.mp hany
    refine iff_of_false (by simp) fun h => ?_
    rw [h change hmem] at hbreaking
    simp at hbreaking
  | false =>
    refine iff_of_true ?_ fun change hmem => ?_
    · cases changes <;> simp
    · exact Bool.eq_false_iff.mpr (List.any_eq_false.mp hany change hmem)

end Diff

end ApiDrift
