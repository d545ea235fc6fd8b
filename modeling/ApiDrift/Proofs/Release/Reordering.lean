import ApiDrift.Proofs.Release.Coverage
import ApiDrift.Proofs.Release.Parts
import Mathlib.Data.List.Forall2

set_option autoImplicit false

/-!
# The order in which a workspace is read

Exports are looked up by name and gone through by name, so the order in which a module
lists them does not show in a diff at all.  Modules are looked up by path and gone
through in the order of the snapshots, so their order shows in the order of the diff, but
in nothing that is said of a module.
-/

namespace ApiDrift

/-! ## Names -/

/-- Names in order do not tell what order they were in before. -/
theorem sortNames_eq_of_perm {names names' : List String} (h : names.Perm names') :
    sortNames names = sortNames names' := by
  have hperm : (sortNames names).Perm (sortNames names') :=
    (List.mergeSort_perm names _).trans (h.trans (List.mergeSort_perm names' _).symm)
  refine List.Perm.eq_of_pairwise (fun a b _ _ hab hba => ?_) (sortNames_sorted names)
    (sortNames_sorted names') hperm
  exact String.le_antisymm hab hba

theorem mergeNames_perm {names names' others others' : List String} (h : names.Perm names')
    (h' : others.Perm others') : (mergeNames names others).Perm (mergeNames names' others') := by
  have hknown : (fun name => !names.contains name) = fun name => !names'.contains name :=
    funext fun name => congrArg (!·) h.contains_eq
  rw [mergeNames, mergeNames, hknown]
  exact h.append (h'.filter _)

/-! ## Exports in another order -/

/-- A module of the same path has the same exports, in any order. -/
def Module.Reordered (m m' : Module) : Prop := m.path = m'.path ∧ m.exports.Perm m'.exports

/-- A snapshot has the same modules in the same order, each with its exports in any
order. -/
def Snapshot.ExportsReordered (s s' : Snapshot) : Prop :=
  List.Forall₂ Module.Reordered s.modules s'.modules

theorem Module.Reordered.export?_eq {m m' : Module} (h : m.Reordered m') (name : String) :
    m.export? name = m'.export? name := by
  refine Option.ext fun e => ?_
  rw [export?_eq_some_iff, export?_eq_some_iff, h.2.mem_iff]

namespace ModuleMatch

variable {m m' : Option Module}

theorem exportNames_perm (h : Option.Rel Module.Reordered m m') :
    (exportNames m).Perm (exportNames m') := by
  cases h with
  | some h => exact h.2.map Export.name
  | none => exact .refl _

theorem bind_export?_eq (h : Option.Rel Module.Reordered m m') (name : String) :
    m.bind (·.export? name) = m'.bind (·.export? name) := by
  cases h with
  | some h => exact h.export?_eq name
  | none => rfl

/-- The match of a module does not depend on the order of its exports. -/
theorem ofSides_eq_of_reordered {before before' after after' : Option Module} (path : String)
    (hbefore : Option.Rel Module.Reordered before before')
    (hafter : Option.Rel Module.Reordered after after') :
    ofSides path before after = ofSides path before' after' := by
  have hentries : matchExports path before after = matchExports path before' after' := by
    have hnames := mergeNames_perm (exportNames_perm hbefore) (exportNames_perm hafter)
    rw [matchExports, matchExports, sortNames_eq_of_perm hnames]
    refine List.map_congr_left fun name _ => ?_
    rw [bind_export?_eq hbefore, bind_export?_eq hafter]
  have hhad : (before.any fun m => !m.exports.isEmpty) =
      before'.any fun m => !m.exports.isEmpty := by
    cases hbefore with
    | some h => exact congrArg (!·) h.2.isEmpty_eq
    | none => rfl
  unfold ofSides
  rw [hentries, hhad]
  cases hbefore <;> cases hafter <;> rfl

end ModuleMatch

/-- Searches for the same in lists that agree element by element stop at the same place. -/
theorem find?_of_forall₂ {α β : Type} {r : α → β → Prop} {p : α → Bool} {q : β → Bool}
    (same : ∀ a b, r a b → p a = q b) {l : List α} {l' : List β} (h : List.Forall₂ r l l') :
    Option.Rel r (l.find? p) (l'.find? q) := by
  induction h with
  | nil => exact .none
  | @cons a b l l' hab _ ih =>
    rw [List.find?_cons, List.find?_cons, same a b hab]
    cases q b with
    | true => exact .some hab
    | false => exact ih

namespace Snapshot

variable {s s' older older' newer newer' : Snapshot}

theorem ExportsReordered.paths_eq (h : s.ExportsReordered s') : s.paths = s'.paths := by
  have hpaths : List.Forall₂ (· = ·) s.paths s'.paths :=
    List.forall₂_map_left_iff.mpr (List.forall₂_map_right_iff.mpr (h.imp fun _ _ hm => hm.1))
  rwa [List.forall₂_eq_eq_eq] at hpaths

theorem ExportsReordered.module?_rel (h : s.ExportsReordered s') (path : String) :
    Option.Rel Module.Reordered (s.module? path) (s'.module? path) :=
  find?_of_forall₂ (fun m m' hm => by rw [hm.1]) h

theorem matchModules_eq_of_exportsReordered (holder : older.ExportsReordered older')
    (hnewer : newer.ExportsReordered newer') :
    older.matchModules newer = older'.matchModules newer' := by
  rw [matchModules, matchModules, holder.paths_eq, hnewer.paths_eq]
  exact List.map_congr_left fun path _ =>
    ModuleMatch.ofSides_eq_of_reordered path (holder.module?_rel path) (hnewer.module?_rel path)

/-! ## Modules in another order -/

theorem module?_eq_of_perm (h : s.modules.Perm s'.modules) : s.module? = s'.module? := by
  refine funext fun path => Option.ext fun m => ?_
  rw [module?_eq_some_iff, module?_eq_some_iff, h.mem_iff]

theorem matchModules_perm (holder : older.modules.Perm older'.modules)
    (hnewer : newer.modules.Perm newer'.modules) :
    (older.matchModules newer).Perm (older'.matchModules newer') := by
  -- what is matched at a path does not change, only the places of the paths do
  rw [matchModules, matchModules, module?_eq_of_perm holder, module?_eq_of_perm hnewer]
  exact (mergeNames_perm (holder.map Module.path) (hnewer.map Module.path)).map _

end Snapshot

theorem Tally.ofChanges_perm {changes changes' : List Change}
    {moduleChanges moduleChanges' : List ModuleChange} (h : changes.Perm changes')
    (h' : moduleChanges.Perm moduleChanges') :
    ofChanges changes moduleChanges = ofChanges changes' moduleChanges' := by
  unfold ofChanges ofKind
  simp only [h.countP_eq, h.length_eq, h'.length_eq]

namespace Diff

variable {comparator : TypeComparator} {older older' newer newer' : Snapshot}

theorem changes_between_perm (h : (older.matchModules newer).Perm (older'.matchModules newer')) :
    (between comparator older newer).changes.Perm (between comparator older' newer').changes := by
  rw [changes_between_eq_flatMap, changes_between_eq_flatMap]
  exact h.flatMap_right _

/-- The changes at one path keep their order when modules change theirs. -/
theorem filter_modulePath_changes_between_of_perm
    (h : (older.matchModules newer).Perm (older'.matchModules newer')) (path : String) :
    ((between comparator older newer).changes.filter fun change => change.modulePath == path) =
      (between comparator older' newer').changes.filter fun change =>
        change.modulePath == path := by
  -- both sides are the changes of the one module matched at the path
  have hblock : ∀ older newer : Snapshot,
      ((between comparator older newer).changes.filter fun change => change.modulePath == path) =
        ((older.matchModules newer).filter fun m => m.modulePath = path).flatMap
          (ModuleMatch.changes comparator) := by
    intro older newer
    rw [changes_between_eq_flatMap]
    exact Keyed.filter_flatMap
      (fun m hm change hchange => Snapshot.modulePath_of_mem_changes hm hchange) (· == path)
  rw [hblock, hblock,
    Keyed.filter_eq_of_perm (Snapshot.modulePath_matchModules_nodup older newer) h path]

theorem moduleChanges_between_perm
    (h : (older.matchModules newer).Perm (older'.matchModules newer')) :
    (between comparator older newer).moduleChanges.Perm
      (between comparator older' newer').moduleChanges := by
  have hentry : ModuleMatch.moduleChange? (between comparator older newer).changes =
      ModuleMatch.moduleChange? (between comparator older' newer').changes :=
    funext fun m =>
      ModuleMatch.moduleChange?_congr (filter_modulePath_changes_between_of_perm h m.modulePath)
  rw [moduleChanges_between_eq, moduleChanges_between_eq, hentry]
  exact h.filterMap _

/-! ## Main statement -/

/-- If modules list their exports in another order, the diff stays as it is.  If snapshots
list their modules in another order, the bump, the tally and all that is said of a module
stay as they are: the changes are those of the modules, one module after the other, and
only the modules change places. -/
theorem between_reordered (comparator : TypeComparator) (older older' newer newer' : Snapshot) :
    let diff := between comparator older newer
    let diff' := between comparator older' newer'
    (older.ExportsReordered older' → newer.ExportsReordered newer' →
      diff.changes = diff'.changes ∧ diff.moduleChanges = diff'.moduleChanges ∧
        diff.tally = diff'.tally ∧ diff.bump = diff'.bump) ∧
    (older.modules.Perm older'.modules → newer.modules.Perm newer'.modules →
      diff.bump = diff'.bump ∧ diff.tally = diff'.tally ∧
        (∀ path, (diff.moduleChanges.filter fun entry => entry.modulePath == path) =
          diff'.moduleChanges.filter fun entry => entry.modulePath == path) ∧
        (∀ path, (diff.changes.filter fun change => change.modulePath == path) =
          diff'.changes.filter fun change => change.modulePath == path) ∧
        diff.moduleChanges.Perm diff'.moduleChanges ∧
        diff.changes = diff.moduleChanges.flatMap ModuleChange.changes ∧
        diff'.changes = diff'.moduleChanges.flatMap ModuleChange.changes) := by
  intro diff diff'
  constructor
  · intro holder hnewer
    have hmatched : older.matchModules newer = older'.matchModules newer' :=
      Snapshot.matchModules_eq_of_exportsReordered holder hnewer
    have hchanges : diff.changes = diff'.changes := congrArg (changesOf comparator) hmatched
    have hmodules : diff.moduleChanges = diff'.moduleChanges :=
      congrArg₂ groupChanges hmatched hchanges
    exact ⟨hchanges, hmodules, congrArg₂ Tally.ofChanges hchanges hmodules,
      congrArg Bump.ofChanges hchanges⟩
  · intro holder hnewer
    have hmatched := Snapshot.matchModules_perm holder hnewer
    have hchanges : diff.changes.Perm diff'.changes := changes_between_perm hmatched
    have hmodules : diff.moduleChanges.Perm diff'.moduleChanges :=
      moduleChanges_between_perm hmatched
    refine ⟨Bump.ofChanges_perm hchanges, Tally.ofChanges_perm hchanges hmodules, ?_, ?_, hmodules,
      flatMap_changes_moduleChanges_between.symm, flatMap_changes_moduleChanges_between.symm⟩
    · exact Keyed.filter_eq_of_perm modulePath_moduleChanges_between_nodup hmodules
    · exact filter_modulePath_changes_between_of_perm hmatched

/-- Two modules with two exports each, read once with the exports swapped and once with the
modules swapped. -/
theorem between_reordered_swapped :
    let e (name id : String) : Export := { name := name, symbol := some { id := id, name := name } }
    let a : Module := ⟨"a", [e "f" "#f", e "g" "#g"], "", by simp [e]⟩
    let a' : Module := ⟨"a", [e "g" "#g", e "f" "#f"], "", by simp [e]⟩
    let b : Module := ⟨"b", [e "h" "#h"], "", by simp⟩
    let snapshot (first second : Module) (h : first.path ≠ second.path) : Snapshot :=
      ⟨"s", "", "", [first, second], none, {}, by simp [h]⟩
    let older := snapshot a b (by decide)
    let reread := snapshot a' b (by decide)
    let turned := snapshot b a (by decide)
    let newer : Snapshot := .empty "none" ""
    (older.ExportsReordered reread ∧ older.modules.Perm turned.modules) ∧
    (between .heuristic older newer).changes = (between .heuristic reread newer).changes ∧
    (between .heuristic older newer).changes.map Change.key = [("a", "f"), ("a", "g"), ("b", "h")] ∧
    (between .heuristic turned newer).changes.map Change.key =
      [("b", "h"), ("a", "f"), ("a", "g")] ∧
    (between .heuristic older newer).tally = (between .heuristic turned newer).tally ∧
    ((between .heuristic turned newer).changes.filter fun change => change.modulePath == "a") =
      (between .heuristic older newer).changes.filter fun change => change.modulePath == "a" := by
  intro e a a' b snapshot older reread turned newer
  have hreread : older.ExportsReordered reread :=
    .cons ⟨rfl, .swap _ _ []⟩ (.cons ⟨rfl, .refl _⟩ .nil)
  have hnewer : newer.ExportsReordered newer := .nil
  have hturned : older.modules.Perm turned.modules := .swap _ _ []
  obtain ⟨hsame, _⟩ := (between_reordered .heuristic older reread newer newer).1 hreread hnewer
  obtain ⟨_, htally, _, hblock, _⟩ :=
    (between_reordered .heuristic older turned newer newer).2 hturned (.refl _)
  exact ⟨⟨hreread, hturned⟩, hsame, by cbv, by cbv, htally, (hblock "a").symm⟩

end Diff

end ApiDrift
