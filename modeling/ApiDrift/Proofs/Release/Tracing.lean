import ApiDrift.Proofs.Release.Lookup
import ApiDrift.Proofs.Signature.Tracing
import ApiDrift.Release.Run

set_option autoImplicit false

/-!
# What a diff logs mirrors its result

All modules are matched before the first export is looked at, so the records begin with the
modules on one side only.  Then they go through the exports of both sides: one that is not
resolved is passed over, and for any other one a record is logged for each detail of its change
that is about an unrelated type.  The last record sums the diff up.
-/

namespace ApiDrift

/-! ## Modules on one side -/

section Modules

variable {path : String} {older newer : Snapshot}

theorem ModuleMatch.trace_of_older (h : path ∈ older.paths) :
    (ofSides path (older.module? path) (newer.module? path)).trace =
      if path ∉ newer.paths then [.moduleRemoved path] else [] := by
  obtain ⟨before, hbefore⟩ := Option.ne_none_iff_exists'.mp fun hnone =>
    Snapshot.module?_eq_none_iff.mp hnone h
  rw [hbefore]
  cases hafter : newer.module? path with
  | none => exact (if_pos (Snapshot.module?_eq_none_iff.mp hafter)).symm
  | some after =>
    refine (if_neg fun hmissing => ?_).symm
    rw [Snapshot.module?_eq_none_iff.mpr hmissing] at hafter
    cases hafter

theorem ModuleMatch.trace_of_newer (hnew : path ∈ newer.paths) (hold : path ∉ older.paths) :
    (ofSides path (older.module? path) (newer.module? path)).trace = [.moduleAdded path] := by
  obtain ⟨after, hafter⟩ := Option.ne_none_iff_exists'.mp fun hnone =>
    Snapshot.module?_eq_none_iff.mp hnone hnew
  rw [Snapshot.module?_eq_none_iff.mpr hold, hafter]
  rfl

/-- The modules that are gone come first, in older order, and then the new ones. -/
theorem Snapshot.trace_matchModules (older newer : Snapshot) :
    (older.matchModules newer).flatMap ModuleMatch.trace =
      (older.paths.filter (· ∉ newer.paths)).map Event.moduleRemoved ++
        (newer.paths.filter (· ∉ older.paths)).map Event.moduleAdded := by
  have hfresh : (newer.paths.filter fun path => !older.paths.contains path) =
      newer.paths.filter (· ∉ older.paths) :=
    List.filter_congr fun path _ => by simp
  rw [matchModules, mergeNames, hfresh, List.flatMap_map, List.flatMap_append]
  congr 1
  · rw [← Signature.flatMap_ite_singleton]
    refine List.flatMap_congr fun path hpath => ?_
    rw [ModuleMatch.trace_of_older hpath]
    simp
  · rw [List.map_eq_flatMap]
    refine List.flatMap_congr fun path hpath => ?_
    obtain ⟨hnew, hold⟩ := List.mem_filter.mp hpath
    exact ModuleMatch.trace_of_newer hnew (of_decide_eq_true hold)

end Modules

/-! ## Exports of both sides -/

/-- The details of a diff under a path and a name that are about unrelated types. -/
def Diff.unrelatedDetails (diff : Diff) (key : String × String) : List Detail :=
  ((diff.changes.filter fun change => change.key = key).flatMap Change.details).filter
    Detail.isUnrelated

namespace Match

/-- The records of an export of both sides: that it is not resolvable if a side has no symbol, and
else one for each detail of its change that is about an unrelated type. -/
inductive TracedAs (diff : Diff) (entry : Match) : List Journal.Record → Prop
  | unresolvable
      (h : entry.before.bind Export.symbol = none ∨ entry.after.bind Export.symbol = none) :
    TracedAs diff entry
      [⟨.debug, "apidelta.analyzers.change_classifier",
        "Skipping " ++ entry.modulePath ++ "#" ++ entry.name ++ ": signature not resolvable"⟩]
  | compared {before after : Symbol} {records : List Journal.Record}
      (hbefore : entry.before.bind Export.symbol = some before)
      (hafter : entry.after.bind Export.symbol = some after)
      (hrecords : List.Forall₂ (Signature.TellsOf before after)
        (diff.unrelatedDetails entry.key) records) :
    TracedAs diff entry records

variable {comparator : TypeComparator} {entry : Match} {before after : Symbol}

theorem trace_of_ne_matched (h : entry.status ≠ .matched) : entry.trace comparator = [] := by
  unfold trace
  cases hstatus : entry.status with
  | added => rfl
  | removed => rfl
  | matched => exact absurd hstatus h

/-- Only exports of both sides leave something in the trace. -/
theorem flatMap_trace_matched (comparator : TypeComparator) (entries : List Match) :
    (entries.filter fun entry => entry.status = .matched).flatMap (trace comparator) =
      entries.flatMap (trace comparator) := by
  induction entries with
  | nil => rfl
  | cons entry entries ih =>
    by_cases hstatus : entry.status = .matched
    · rw [List.filter_cons_of_pos (by simpa using hstatus), List.flatMap_cons, ih,
        List.flatMap_cons]
    · rw [List.filter_cons_of_neg (by simpa using hstatus), ih, List.flatMap_cons,
        trace_of_ne_matched hstatus, List.nil_append]

/-- What is logged while an export is classified is its trace. -/
theorem records_run (comparator : TypeComparator) (entry : Match) :
    (entry.run comparator).records = (entry.trace comparator).map Event.record := by
  unfold run trace versions?
  cases entry.status with
  | added | removed => rfl
  | matched =>
    cases entry.before.bind Export.symbol with
    | none => rfl
    | some before =>
      cases entry.after.bind Export.symbol with
      | none => rfl
      | some after =>
        dsimp only
        rw [Traced.records_bind, Signature.records_run_eq_map_trace]
        split <;> exact List.append_nil _

/-- All differences between two versions of a symbol are details of the change, if there are
any. -/
theorem flatMap_details_change? (hstatus : entry.status = .matched)
    (hversions : entry.versions? = some (before, after)) :
    (entry.change? comparator).toList.flatMap Change.details =
      Signature.compareSymbols comparator before after := by
  rw [change?, hstatus, hversions]
  dsimp only [Option.bind_some]
  split
  · rename_i hsame
    exact hsame.symm
  · exact List.flatMap_singleton _ _

end Match

namespace Diff

variable {older newer : Snapshot} {entry : Match}

theorem unrelatedDetails_between (comparator : TypeComparator)
    (hentry : entry ∈ older.matchExports newer) :
    (between comparator older newer).unrelatedDetails entry.key =
      ((entry.change? comparator).toList.flatMap Change.details).filter Detail.isUnrelated := by
  obtain ⟨path, name, hside, rfl⟩ := Snapshot.mem_matchExports_iff.mp hentry
  rw [unrelatedDetails]
  exact congrArg (fun changes => (changes.flatMap Change.details).filter Detail.isUnrelated)
    (filter_key_changes_between comparator hside)

theorem tracedAs_run (hentry : entry ∈ older.matchExports newer)
    (hstatus : entry.status = .matched) :
    entry.TracedAs (between .heuristic older newer) (entry.run .heuristic).records := by
  rw [Match.records_run, Match.trace, hstatus]
  dsimp only
  cases hversions : entry.versions? with
  | none => exact .unresolvable (Match.versions?_eq_none_iff.mp hversions)
  | some versions =>
    obtain ⟨before, after⟩ := versions
    obtain ⟨hbefore, hafter⟩ := Match.versions?_eq_some_iff.mp hversions
    refine .compared hbefore hafter ?_
    rw [unrelatedDetails_between .heuristic hentry,
      Match.flatMap_details_change? hstatus hversions, ← Signature.records_run_eq_map_trace]
    exact Signature.tellsOf_compareSymbols before after

/-! ## The records of a diff -/

theorem flatMap_trace_matchModules (comparator : TypeComparator) (older newer : Snapshot) :
    ((older.matchModules newer).flatMap fun m => m.entries.flatMap fun e => e.trace comparator) =
      ((older.matchExports newer).filter fun entry => entry.status = .matched).flatMap
        (Match.trace comparator) := by
  rw [Match.flatMap_trace_matched, Snapshot.matchExports, List.flatMap_assoc]

theorem records_runMatching (older newer : Snapshot) :
    (older.runMatching newer).records =
      ((older.matchModules newer).flatMap ModuleMatch.trace).map Event.record := by
  unfold Snapshot.runMatching Snapshot.matchModules
  rw [Traced.records_each, List.flatMap_map, List.map_flatMap]
  simp only [ModuleMatch.records_run]

theorem records_runClassifying (comparator : TypeComparator) (modules : List ModuleMatch) :
    (runClassifying comparator modules).records =
      (modules.flatMap fun m => m.entries.flatMap fun e => e.trace comparator).map
        Event.record := by
  unfold runClassifying
  simp only [Traced.records_bind, Traced.records_pure, Traced.records_each, List.append_nil,
    List.map_flatMap, Match.records_run]

/-- What is logged while two snapshots are compared is the trace of their diff. -/
theorem records_run (comparator : TypeComparator) (older newer : Snapshot) :
    (run comparator older newer).records = (trace comparator older newer).map Event.record := by
  unfold run trace
  simp only [Traced.records_bind, Traced.records_pure, Traced.records_log, List.append_nil,
    records_runMatching, records_runClassifying, Snapshot.result_runMatching,
    result_runClassifying, List.map_append, List.append_assoc]
  rfl

/-! ## Main statement -/

/-- A run comes to the diff and logs the modules that are gone, in older order, and the new ones;
then what there is to log of each export of both sides, in the order in which they are matched;
and last one record with the counts and the bump of the diff. -/
theorem trace_mirrors_between (older newer : Snapshot) :
    let diff := between .heuristic older newer
    (run .heuristic older newer).result = diff ∧
    ∃ compared : List (List Journal.Record),
      (run .heuristic older newer).records =
        ((older.paths.filter (· ∉ newer.paths)).map fun path =>
          ⟨.debug, "apidelta.analyzers.symbol_matcher", "Module " ++ path ++ " removed"⟩) ++
        ((newer.paths.filter (· ∉ older.paths)).map fun path =>
          ⟨.debug, "apidelta.analyzers.symbol_matcher", "Module " ++ path ++ " added"⟩) ++
        compared.flatten ++
        [⟨.debug, "apidelta.analyzers.api_differ",
          "Diff " ++ older.id ++ " -> " ++ newer.id ++ ": " ++ toString diff.tally.totalChanges ++
            " changes (" ++ toString diff.tally.breakingChanges ++
            " breaking), recommended bump " ++ diff.bump.word⟩] ∧
      List.Forall₂ (Match.TracedAs diff)
        ((older.matchExports newer).filter fun entry => entry.status = .matched) compared := by
  intro diff
  refine ⟨result_run .heuristic older newer,
    ((older.matchExports newer).filter fun entry => entry.status = .matched).map fun entry =>
      (entry.run .heuristic).records, ?_, ?_⟩
  · rw [records_run, trace, Snapshot.trace_matchModules, flatMap_trace_matchModules]
    simp only [Match.records_run, ← List.flatMap_def, ← List.map_flatMap, List.map_append,
      List.map_map]
    rfl
  · rw [List.forall₂_map_right_iff, List.forall₂_same]
    intro entry hentry
    obtain ⟨hmem, hstatus⟩ := List.mem_filter.mp hentry
    exact tracedAs_run hmem (of_decide_eq_true hstatus)

/-- An export without a symbol is logged although it makes no change. -/
example :
    let older : Snapshot :=
      ⟨"1", "", "", [⟨"gone", [], "", by decide⟩, ⟨"m", [{ name := "f" }], "", by decide⟩], none,
        {}, by decide⟩
    let newer : Snapshot :=
      ⟨"2", "", "", [⟨"m", [{ name := "f" }], "", by decide⟩, ⟨"new", [], "", by decide⟩], none,
        {}, by decide⟩
    (run .heuristic older newer).records.map Journal.Record.message =
      ["Module gone removed", "Module new added", "Skipping m#f: signature not resolvable",
        "Diff 1 -> 2: 0 changes (0 breaking), recommended bump none"] := by
  decide +kernel

end Diff

end ApiDrift
