import ApiDrift.Release.Diff
import ApiDrift.Signature.Run

set_option autoImplicit false

/-!
# Running a diff

Two snapshots are compared in steps.  First all modules are matched, then the exports of
each match are classified, and at last the changes are grouped, counted and summed up.
The steps come to the diff between the snapshots, and what they log on the way is its
trace.
-/

namespace ApiDrift

/-! ## Matching modules -/

/-- Matches the modules of one path, and logs if one side has none. -/
def ModuleMatch.run (path : String) (before after : Option Module) : Traced ModuleMatch := do
  match before, after with
  | _, none => Traced.log (.moduleRemoved path)
  | none, some _ => Traced.log (.moduleAdded path)
  | some _, some _ => pure ()
  return .ofSides path before after

/-- Matches the modules of two snapshots, path by path. -/
def Snapshot.runMatching (older newer : Snapshot) : Traced (List ModuleMatch) :=
  Traced.each (fun path => ModuleMatch.run path (older.module? path) (newer.module? path))
    (mergeNames older.paths newer.paths)

/-! ## Classifying exports -/

/-- Classifies the match of an export name.  What is on both sides is compared, and logged
if a signature is unknown. -/
def Match.run (comparator : TypeComparator) (m : Match) : Traced (Option Change) :=
  match m.status with
  | .added => return some m.addition
  | .removed => return some m.removal
  | .matched =>
    match m.before.bind Export.symbol, m.after.bind Export.symbol with
    | some before, some after => do
      let details ← Signature.run comparator before after
      if details.isEmpty then return none
      else return some (m.modification before after details)
    | _, _ => do
      Traced.log (.unresolvable m.modulePath m.name)
      return none

/-- Classifies all exports of matched modules. -/
def runClassifying (comparator : TypeComparator) (modules : List ModuleMatch) :
    Traced (List Change) := do
  let changes ← Traced.each (fun m => Traced.each (Match.run comparator) m.entries) modules
  return changes.flatten.filterMap id

/-! ## Diffs -/

/-- Compares two snapshots. -/
def Diff.run (comparator : TypeComparator) (older newer : Snapshot) : Traced Diff := do
  let modules ← older.runMatching newer
  let changes ← runClassifying comparator modules
  let moduleChanges := groupChanges modules changes
  let tally := Tally.ofChanges changes moduleChanges
  let bump := Bump.ofChanges changes
  Traced.log (.diffed older.id newer.id tally.totalChanges tally.breakingChanges bump)
  return { older, newer, changes, moduleChanges, tally, bump }

/-! ## Results of the steps -/

theorem ModuleMatch.result_run (path : String) (before after : Option Module) :
    (run path before after).result = ofSides path before after := by
  cases before <;> cases after <;> rfl

theorem Snapshot.result_runMatching (older newer : Snapshot) :
    (older.runMatching newer).result = older.matchModules newer := by
  unfold runMatching matchModules
  rw [Traced.result_each]
  simp only [ModuleMatch.result_run]

theorem Match.result_run (comparator : TypeComparator) (m : Match) :
    (m.run comparator).result = m.change? comparator := by
  unfold run change? versions?
  cases m.status with
  | added | removed => rfl
  | matched =>
    cases m.before.bind Export.symbol with
    | none => rfl
    | some before =>
      cases m.after.bind Export.symbol with
      | none => rfl
      | some after =>
        dsimp only
        rw [Traced.result_bind, Signature.result_run, Option.bind_some]
        cases Signature.compareSymbols comparator before after <;> rfl

theorem result_runClassifying (comparator : TypeComparator) (modules : List ModuleMatch) :
    (runClassifying comparator modules).result = Diff.changesOf comparator modules := by
  unfold runClassifying Diff.changesOf
  simp only [Traced.result_bind, Traced.result_pure, Traced.result_each, Match.result_run]
  rw [← List.flatMap_def, List.filterMap_flatMap]
  simp only [List.filterMap_map, Function.id_comp]

theorem Diff.result_run (comparator : TypeComparator) (older newer : Snapshot) :
    (run comparator older newer).result = between comparator older newer := by
  unfold run between
  simp only [Traced.result_bind, Traced.result_pure, Snapshot.result_runMatching,
    result_runClassifying]

/-! ## Records of the steps -/

theorem ModuleMatch.records_run (path : String) (before after : Option Module) :
    (run path before after).records = (ofSides path before after).trace.map Event.record := by
  cases before <;> cases after <;> rfl

end ApiDrift
