import ApiDrift.Proofs.Release.Grouping

set_option autoImplicit false

/-!
# Looking a change up

Every export is matched once, so a diff has one change of an export at most, and what
it has under a path and a name is the change of the one match with that path and name.
The kind of the change says which of the snapshots have the export.
-/

namespace ApiDrift

/-! ## Keys -/

/-- What a match is known by. -/
def Match.key (entry : Match) : String × String := (entry.modulePath, entry.name)

/-- What a change is known by. -/
def Change.key (change : Change) : String × String := (change.modulePath, change.symbolName)

theorem Match.key_of_change? {comparator : TypeComparator} {entry : Match} {change : Change}
    (h : entry.change? comparator = some change) : change.key = entry.key := by
  obtain ⟨hpath, hname⟩ := names_of_change? h
  rw [Change.key, hpath, hname, key]

theorem sortNames_nodup {names : List String} (h : names.Nodup) : (sortNames names).Nodup :=
  (List.mergeSort_perm names _).nodup_iff.mpr h

theorem ModuleMatch.exportNames_nodup (m : Option Module) : (exportNames m).Nodup := by
  cases m with
  | none => exact List.nodup_nil
  | some m => exact m.names_nodup

theorem ModuleMatch.map_name_entries_ofSides (path : String) (before after : Option Module) :
    (ofSides path before after).entries.map Match.name =
      sortNames (mergeNames (exportNames before) (exportNames after)) := by
  change (matchExports path before after).map Match.name = _
  rw [matchExports, List.map_map]
  exact List.map_id _

/-- A module is matched export by export. -/
theorem ModuleMatch.name_entries_ofSides_nodup (path : String) (before after : Option Module) :
    ((ofSides path before after).entries.map Match.name).Nodup := by
  rw [map_name_entries_ofSides]
  exact sortNames_nodup (mergeNames_nodup (exportNames_nodup before) (exportNames_nodup after))

/-! ## Kinds of changes -/

namespace Match

variable {comparator : TypeComparator} {entry : Match} {change : Change}

/-- An export of both snapshots is modified, with or without a deprecation. -/
theorem kind_of_change?_of_matched (hstatus : entry.status = .matched)
    (h : entry.change? comparator = some change) :
    change.kind = .modified ∨ change.kind = .deprecated := by
  rw [change?, hstatus] at h
  obtain ⟨⟨before, after⟩, _, hchange⟩ := Option.bind_eq_some_iff.mp h
  dsimp only at hchange
  split at hchange
  · cases hchange
  · cases hchange
    dsimp only [modification]
    split
    · exact .inr rfl
    · exact .inl rfl

/-- A change is an addition or a removal exactly if its match is on one side only. -/
theorem kind_of_change? (h : entry.change? comparator = some change) :
    (change.kind = .added ↔ entry.status = .added) ∧
      (change.kind = .removed ↔ entry.status = .removed) := by
  cases hstatus : entry.status with
  | added =>
    rw [change?, hstatus] at h
    cases h
    simp [addition]
  | removed =>
    rw [change?, hstatus] at h
    cases h
    simp [removal]
  | matched =>
    rcases kind_of_change?_of_matched hstatus h with hkind | hkind <;> simp [hkind]

/-- A match on one side only is always a change. -/
theorem exists_change?_of_ne_matched (h : entry.status ≠ .matched) :
    ∃ change, entry.change? comparator = some change := by
  unfold change?
  cases hstatus : entry.status with
  | added => exact ⟨_, rfl⟩
  | removed => exact ⟨_, rfl⟩
  | matched => exact absurd hstatus h

end Match

/-! ## Matches of two snapshots -/

/-- No export is matched twice. -/
theorem Snapshot.key_matchExports_nodup (older newer : Snapshot) :
    ((older.matchExports newer).map Match.key).Nodup := by
  have hpaths := modulePath_matchModules_nodup older newer
  rw [List.Nodup, List.pairwise_map] at hpaths ⊢
  rw [matchExports, List.pairwise_flatMap]
  constructor
  · intro m hm
    obtain ⟨path, _, rfl⟩ := mem_matchModules_iff.mp hm
    have hnames := ModuleMatch.name_entries_ofSides_nodup path (older.module? path)
      (newer.module? path)
    rw [List.Nodup, List.pairwise_map] at hnames
    exact hnames.imp fun hdifferent hsame => hdifferent (congrArg Prod.snd hsame)
  · refine hpaths.imp_of_mem fun {m m'} hm hm' hdifferent entry hentry entry' hentry' hsame => ?_
    obtain ⟨path, _, rfl⟩ := mem_matchModules_iff.mp hm
    obtain ⟨path', _, rfl⟩ := mem_matchModules_iff.mp hm'
    apply hdifferent
    rw [Match.key, ModuleMatch.modulePath_of_mem_entries hentry, Match.key,
      ModuleMatch.modulePath_of_mem_entries hentry'] at hsame
    exact congrArg Prod.fst hsame

/-! ## Changes of a diff -/

namespace Diff

variable {comparator : TypeComparator} {older newer : Snapshot} {path name : String}

/-- What a diff has under a path and a name is the change of their match. -/
theorem filter_key_changes_between (comparator : TypeComparator)
    (h : (older.export? path name).isSome = true ∨ (newer.export? path name).isSome = true) :
    ((between comparator older newer).changes.filter fun change => change.key = (path, name)) =
      ((Match.between older newer path name).change? comparator).toList := by
  have hmem : Match.between older newer path name ∈ older.matchExports newer :=
    Snapshot.mem_matchExports_iff.mpr ⟨path, name, h, rfl⟩
  have hkeys : ∀ entry ∈ older.matchExports newer,
      ∀ change ∈ (entry.change? comparator).toList, change.key = entry.key := by
    intro entry _ change hchange
    exact Match.key_of_change? (Option.mem_toList.mp hchange)
  rw [changes_between_eq, List.filterMap_eq_flatMap_toList]
  exact Keyed.filter_flatMap_eq (Snapshot.key_matchExports_nodup older newer) hkeys hmem

/-- No export has two changes. -/
theorem key_changes_between_nodup (comparator : TypeComparator) (older newer : Snapshot) :
    ((between comparator older newer).changes.map Change.key).Nodup := by
  have hkeys := Snapshot.key_matchExports_nodup older newer
  rw [List.Nodup, List.pairwise_map] at hkeys ⊢
  rw [changes_between_eq, List.pairwise_filterMap]
  refine hkeys.imp fun hdifferent change hchange change' hchange' => ?_
  rw [Match.key_of_change? hchange, Match.key_of_change? hchange']
  exact hdifferent

/-! ## Keys by kind -/

/-- The module paths and names of the changes of a kind. -/
def keysOf (diff : Diff) (kind : ChangeKind) : List (String × String) :=
  (diff.changes.filter fun change => change.kind = kind).map Change.key

theorem keysOf_between_nodup (comparator : TypeComparator) (older newer : Snapshot)
    (kind : ChangeKind) : ((between comparator older newer).keysOf kind).Nodup :=
  (key_changes_between_nodup comparator older newer).sublist (List.filter_sublist.map _)

theorem mem_keysOf_between_iff {kind : ChangeKind} :
    (path, name) ∈ (between comparator older newer).keysOf kind ↔
      ((older.export? path name).isSome = true ∨ (newer.export? path name).isSome = true) ∧
        ∃ change, (Match.between older newer path name).change? comparator = some change ∧
          change.kind = kind := by
  simp only [keysOf, List.mem_map, List.mem_filter, decide_eq_true_eq]
  constructor
  · intro h
    obtain ⟨change, ⟨hmem, hkind⟩, hkey⟩ := h
    obtain ⟨path', name', hside, hchange⟩ := mem_changes_between_iff.mp hmem
    obtain ⟨rfl, rfl⟩ := Prod.mk.inj ((Match.key_of_change? hchange).symm.trans hkey)
    exact ⟨hside, change, hchange, hkind⟩
  · intro h
    obtain ⟨hside, change, hchange, hkind⟩ := h
    refine ⟨change, ⟨mem_changes_between_iff.mpr ⟨path, name, hside, hchange⟩, hkind⟩, ?_⟩
    exact Match.key_of_change? hchange

/-- The exports that only the newer snapshot has are added. -/
theorem mem_keysOf_added_iff :
    (path, name) ∈ (between comparator older newer).keysOf .added ↔
      older.export? path name = none ∧ (newer.export? path name).isSome = true := by
  rw [mem_keysOf_between_iff, ← Match.status_between_eq_added_iff]
  constructor
  · intro h
    obtain ⟨_, change, hchange, hkind⟩ := h
    exact (Match.kind_of_change? hchange).1.mp hkind
  · intro h
    have hnew := (Match.status_between_eq_added_iff.mp h).2
    have hone : (Match.between older newer path name).status ≠ .matched := by simp [h]
    obtain ⟨change, hchange⟩ := Match.exists_change?_of_ne_matched hone
    exact ⟨.inr hnew, change, hchange, (Match.kind_of_change? hchange).1.mpr h⟩

/-- The exports that only the older snapshot has are removed. -/
theorem mem_keysOf_removed_iff :
    (path, name) ∈ (between comparator older newer).keysOf .removed ↔
      newer.export? path name = none ∧ (older.export? path name).isSome = true := by
  rw [mem_keysOf_between_iff]
  constructor
  · intro h
    obtain ⟨hside, change, hchange, hkind⟩ := h
    have hnew : newer.export? path name = none :=
      Match.status_between_eq_removed_iff.mp ((Match.kind_of_change? hchange).2.mp hkind)
    refine ⟨hnew, hside.resolve_right ?_⟩
    simp [hnew]
  · intro h
    obtain ⟨hnew, hold⟩ := h
    have hstatus : (Match.between older newer path name).status = .removed :=
      Match.status_between_eq_removed_iff.mpr hnew
    have hone : (Match.between older newer path name).status ≠ .matched := by simp [hstatus]
    obtain ⟨change, hchange⟩ := Match.exists_change?_of_ne_matched hone
    exact ⟨.inl hold, change, hchange, (Match.kind_of_change? hchange).2.mpr hstatus⟩

end Diff

end ApiDrift
