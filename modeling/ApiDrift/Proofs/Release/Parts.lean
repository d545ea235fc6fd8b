import ApiDrift.Proofs.Release.Grouping

set_option autoImplicit false

/-!
# Diffs of parts of a release

Modules are matched by path and every change stays with the module it comes from.  So the
diff of the modules at some paths is that part of the whole diff, and the bump of the
whole is the larger one of the bumps of the part and of the rest.
-/

namespace ApiDrift

/-! ## Bumps of changes together -/

/-- Changes together ask for the larger of the bumps that two parts of them ask for. -/
theorem Bump.ofChanges_append (changes changes' : List Change) :
    ofChanges (changes ++ changes') = max (ofChanges changes) (ofChanges changes') := by
  have hempty : (changes ++ changes').isEmpty = (changes.isEmpty && changes'.isEmpty) := by
    cases changes <;> rfl
  unfold ofChanges
  rw [List.any_append, hempty]
  cases changes.any Change.breaking <;> cases changes'.any Change.breaking <;>
    cases changes.isEmpty <;> cases changes'.isEmpty <;> rfl

theorem Bump.ofChanges_perm {changes changes' : List Change} (h : changes.Perm changes') :
    ofChanges changes = ofChanges changes' := by
  rw [ofChanges, ofChanges, h.any_eq, h.isEmpty_eq]

/-- However changes are divided in two, they ask for the larger of the two bumps. -/
theorem Bump.ofChanges_eq_max_filter (p : Change → Bool) (changes : List Change) :
    ofChanges changes =
      max (ofChanges (changes.filter p)) (ofChanges (changes.filter fun c => !p c)) := by
  rw [← ofChanges_append]
  exact (ofChanges_perm (List.filter_append_perm p changes)).symm

/-! ## Parts of a snapshot -/

theorem mergeNames_filter (p : String → Bool) (names others : List String) :
    mergeNames (names.filter p) (others.filter p) = (mergeNames names others).filter p := by
  rw [mergeNames, mergeNames, List.filter_append, List.filter_filter, List.filter_filter]
  refine congrArg (names.filter p ++ ·) (List.filter_congr fun name _ => ?_)
  cases hp : p name <;> simp [hp]

namespace Snapshot

variable {older newer : Snapshot} {chosen : String → Bool}

/-- The modules of a snapshot at chosen paths, as a snapshot with counts of its own. -/
def restrict (s : Snapshot) (chosen : String → Bool) : Snapshot where
  id := s.id
  createdAt := s.createdAt
  workspaceUri := s.workspaceUri
  modules := s.modules.filter fun m => chosen m.path
  tag := s.tag
  statistics := .ofModules (s.modules.filter fun m => chosen m.path)
  paths_nodup := s.paths_nodup.sublist (List.filter_sublist.map Module.path)

theorem paths_restrict (s : Snapshot) (chosen : String → Bool) :
    (s.restrict chosen).paths = s.paths.filter chosen := by
  rw [paths, paths, List.filter_map]
  rfl

theorem module?_restrict (s : Snapshot) {path : String} (h : chosen path = true) :
    (s.restrict chosen).module? path = s.module? path := by
  refine Option.ext fun m => ?_
  rw [module?_eq_some_iff, module?_eq_some_iff, restrict, List.mem_filter]
  refine ⟨fun hm => ⟨hm.1.1, hm.2⟩, fun hm => ⟨⟨hm.1, ?_⟩, hm.2⟩⟩
  rw [hm.2]
  exact h

/-- The modules at chosen paths are matched as they are among all modules. -/
theorem matchModules_restrict (older newer : Snapshot) (chosen : String → Bool) :
    (older.restrict chosen).matchModules (newer.restrict chosen) =
      (older.matchModules newer).filter fun m => chosen m.modulePath := by
  rw [matchModules, paths_restrict, paths_restrict, mergeNames_filter, matchModules,
    List.filter_map]
  refine List.map_congr_left fun path hpath => ?_
  have hchosen := (List.mem_filter.mp hpath).2
  rw [module?_restrict older hchosen, module?_restrict newer hchosen]

end Snapshot

/-! ## Parts of a diff -/

/-- The entry of a module is the same among the changes at chosen paths. -/
theorem ModuleMatch.moduleChange?_filter {chosen : String → Bool} {m : ModuleMatch}
    (h : chosen m.modulePath = true) (all : List Change) :
    m.moduleChange? (all.filter fun change => chosen change.modulePath) = m.moduleChange? all := by
  refine moduleChange?_congr ?_
  rw [List.filter_filter]
  refine List.filter_congr fun change _ => ?_
  by_cases hpath : change.modulePath = m.modulePath
  · simp [hpath, h]
  · simp [hpath]

namespace Diff

theorem changes_between_restrict (comparator : TypeComparator) (older newer : Snapshot)
    (chosen : String → Bool) :
    (between comparator (older.restrict chosen) (newer.restrict chosen)).changes =
      (between comparator older newer).changes.filter fun change =>
        chosen change.modulePath := by
  rw [changes_between_eq_flatMap, changes_between_eq_flatMap, Snapshot.matchModules_restrict]
  exact (Keyed.filter_flatMap
    (fun m hm change hchange => Snapshot.modulePath_of_mem_changes hm hchange) chosen).symm

theorem moduleChanges_between_restrict (comparator : TypeComparator) (older newer : Snapshot)
    (chosen : String → Bool) :
    (between comparator (older.restrict chosen) (newer.restrict chosen)).moduleChanges =
      (between comparator older newer).moduleChanges.filter fun entry =>
        chosen entry.modulePath := by
  have hpaths : ∀ m ∈ older.matchModules newer,
      ∀ entry ∈ (m.moduleChange? (between comparator older newer).changes).toList,
        entry.modulePath = m.modulePath := by
    intro m _ entry hentry
    exact ModuleMatch.modulePath_of_moduleChange? (Option.mem_toList.mp hentry)
  rw [moduleChanges_between_eq, moduleChanges_between_eq, Snapshot.matchModules_restrict,
    changes_between_restrict, List.filterMap_eq_flatMap_toList, List.filterMap_eq_flatMap_toList,
    Keyed.filter_flatMap hpaths chosen]
  refine List.flatMap_congr fun m hm => ?_
  rw [ModuleMatch.moduleChange?_filter (List.mem_filter.mp hm).2]

/-! ## Main statement -/

/-- The diff of the modules at chosen paths has the changes and the module changes that the
whole diff has at these paths, in their order.  The bump of the whole diff is the larger of
the bump at these paths and the bump at all others. -/
theorem between_restrict (comparator : TypeComparator) (older newer : Snapshot)
    (chosen : String → Bool) :
    let diff := between comparator older newer
    let part := between comparator (older.restrict chosen) (newer.restrict chosen)
    let rest := between comparator (older.restrict fun path => !chosen path)
      (newer.restrict fun path => !chosen path)
    part.changes = (diff.changes.filter fun change => chosen change.modulePath) ∧
    part.moduleChanges = (diff.moduleChanges.filter fun entry => chosen entry.modulePath) ∧
    diff.bump = max part.bump rest.bump := by
  intro diff part rest
  refine ⟨changes_between_restrict comparator older newer chosen,
    moduleChanges_between_restrict comparator older newer chosen, ?_⟩
  have hpart : part.bump = Bump.ofChanges (diff.changes.filter fun c => chosen c.modulePath) :=
    congrArg Bump.ofChanges (changes_between_restrict comparator older newer chosen)
  have hrest : rest.bump = Bump.ofChanges (diff.changes.filter fun c => !chosen c.modulePath) :=
    congrArg Bump.ofChanges (changes_between_restrict comparator older newer _)
  rw [hpart, hrest]
  exact Bump.ofChanges_eq_max_filter _ _

end Diff

end ApiDrift
