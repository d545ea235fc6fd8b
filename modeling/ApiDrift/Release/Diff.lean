import ApiDrift.Release.Change

set_option autoImplicit false

/-!
# Release diffs

The changes between two snapshots, grouped by module, counted by kind, and
reduced to a recommended bump.  How many changes there are does not matter for
the bump.
-/

namespace ApiDrift

/-! ## Bump -/

/-- The bump that changes ask for together. -/
def Bump.ofChanges (changes : List Change) : Bump :=
  if changes.any Change.breaking then .major
  else if changes.isEmpty then .none
  else .minor

/-! ## Module changes -/

/-- The changes of a diff that belong to one module. -/
structure ModuleChange where
  modulePath : String
  status : ModuleStatus
  changes : List Change
  breaking : Bool
  deriving Repr

/-- The entry of a module in a diff.  Added and removed modules are always
listed, even without exports; a module on both sides only if something in it
changed. -/
def ModuleMatch.moduleChange? (changes : List Change) (m : ModuleMatch) : Option ModuleChange :=
  let own := changes.filter fun c => c.modulePath == m.modulePath
  match m.status with
  | .removed => some ⟨m.modulePath, .removed, own, m.hadExports⟩
  | .added => some ⟨m.modulePath, .added, own, false⟩
  | .changed =>
    if own.isEmpty then none
    else some ⟨m.modulePath, .changed, own, own.any Change.breaking⟩

/-- The changes of a diff grouped by module, in module order. -/
def groupChanges (modules : List ModuleMatch) (changes : List Change) : List ModuleChange :=
  modules.filterMap fun m => m.moduleChange? changes

/-! ## Tally -/

/-- Counts over the changes of a diff.  Modifications include deprecations. -/
structure Tally where
  additions : Nat
  removals : Nat
  modifications : Nat
  deprecations : Nat
  breakingChanges : Nat
  totalChanges : Nat
  modulesAffected : Nat
  deriving DecidableEq, Repr, Inhabited

namespace Tally

/-- How many changes are of a kind. -/
def ofKind (kind : ChangeKind) (changes : List Change) : Nat :=
  changes.countP fun c => c.kind = kind

/-- The counts over changes and the modules they affect. -/
def ofChanges (changes : List Change) (moduleChanges : List ModuleChange) : Tally where
  additions := ofKind .added changes
  removals := ofKind .removed changes
  modifications := ofKind .modified changes + ofKind .deprecated changes
  deprecations := ofKind .deprecated changes
  breakingChanges := changes.countP Change.breaking
  totalChanges := changes.length
  modulesAffected := moduleChanges.length

end Tally

/-! ## Diffs -/

/-- The difference between an older and a newer snapshot. -/
structure Diff where
  older : Snapshot
  newer : Snapshot
  changes : List Change
  moduleChanges : List ModuleChange
  tally : Tally
  bump : Bump
  deriving Repr

namespace Diff

/-- The changes of matched modules, by module and then by export name. -/
def changesOf (comparator : TypeComparator) (modules : List ModuleMatch) : List Change :=
  modules.flatMap fun m => m.entries.filterMap fun e => e.change? comparator

/-- The difference between two snapshots. -/
def between (comparator : TypeComparator) (older newer : Snapshot) : Diff :=
  let modules := older.matchModules newer
  let changes := changesOf comparator modules
  let moduleChanges := groupChanges modules changes
  { older := older
    newer := newer
    changes := changes
    moduleChanges := moduleChanges
    tally := .ofChanges changes moduleChanges
    bump := .ofChanges changes }

/-- The changes of a diff that break callers. -/
def breakingChanges (d : Diff) : List Change := d.changes.filter Change.breaking

/-- What computing a difference leaves in the trace: the modules on one side
only, what came up while matched exports were compared, and the result. -/
def trace (comparator : TypeComparator) (older newer : Snapshot) : List Event :=
  let modules := older.matchModules newer
  let diff := between comparator older newer
  modules.flatMap ModuleMatch.trace ++
    (modules.flatMap fun m => m.entries.flatMap fun e => e.trace comparator) ++
    [.diffed older.id newer.id diff.tally.totalChanges diff.tally.breakingChanges diff.bump]

end Diff

end ApiDrift
