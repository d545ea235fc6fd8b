import ApiDrift.Proofs.Impact.Batch
import ApiDrift.Proofs.Impact.Totals
import ApiDrift.Proofs.Release.Grouping
import Mathlib.Data.Finset.Card

set_option autoImplicit false

/-!
# The accounts of a summary

A summary counts reports by level, adds up their blast radii, keeps the first of the largest
ones and counts what breaks callers without a report.  The reports stand under the references
of the changes, each once, so their number is the number of different references, and no
change is without one.
-/

namespace ApiDrift

/-! ## Different elements -/

theorem card_toFinset_eq_length_eraseDups {α : Type} [DecidableEq α] (l : List α) :
    l.toFinset.card = l.eraseDups.length := by
  have hsame : l.toFinset = l.eraseDups.toFinset := by
    ext a
    rw [List.mem_toFinset, List.mem_toFinset, List.mem_eraseDups]
  rw [hsame, List.toFinset_card_of_nodup (eraseDups_nodup l)]

/-! ## Breaking modules -/

/-- The bump is major exactly if a module is listed as breaking. -/
theorem Diff.exists_breaking_module_iff {comparator : TypeComparator} {older newer : Snapshot} :
    (∃ entry ∈ (between comparator older newer).moduleChanges, entry.breaking = true) ↔
      (between comparator older newer).bump = .major := by
  rw [bump_eq_major_iff, ← flatMap_changes_moduleChanges_between]
  simp only [List.mem_flatMap]
  constructor
  · intro h
    obtain ⟨entry, hentry, hbreaks⟩ := h
    obtain ⟨change, hchange, hbreaks⟩ := (breaking_iff_of_mem_moduleChanges hentry).mp hbreaks
    exact ⟨change, ⟨entry, hentry, hchange⟩, hbreaks⟩
  · intro h
    obtain ⟨change, ⟨entry, hentry, hchange⟩, hbreaks⟩ := h
    exact ⟨entry, hentry, (breaking_iff_of_mem_moduleChanges hentry).mpr ⟨change, hchange, hbreaks⟩⟩

namespace Impact

/-! ## Levels -/

/-- The five levels account for every report. -/
theorem countLevel_add_eq_size (reports : InsertionMap String Report) :
    countLevel .critical reports + countLevel .high reports + countLevel .medium reports +
      countLevel .low reports + countLevel .none reports = reports.size := by
  have hsum := sum_countLevel_all reports
  simp only [Level.all, List.map_cons, List.map_nil, List.sum_cons, List.sum_nil] at hsum
  omega

theorem countLevel_add_eq_countP_isHigh (reports : InsertionMap String Report) :
    countLevel .critical reports + countLevel .high reports =
      reports.values.countP fun r => r.level.isHigh := by
  have hdistinct : [Level.critical, .high].Nodup := by decide
  have hsum := sum_countLevel hdistinct reports
  have hhigh : (reports.values.countP fun r => r.level ∈ [.critical, .high]) =
      reports.values.countP fun r => r.level.isHigh := by
    refine List.countP_congr fun r _ => ?_
    cases r.level <;> decide
  simp only [List.map_cons, List.map_nil, List.sum_cons, List.sum_nil, hhigh] at hsum
  omega

/-! ## Reports under the references of changes -/

section References

variable {diff : Diff} {reports : InsertionMap String Report}
  (hkeys : reports.keys = (diff.changes.map Change.symbolRef).eraseDups)

include hkeys

/-- There are as many reports as different references. -/
theorem size_eq_card : reports.size = (diff.changes.map Change.symbolRef).toFinset.card := by
  rw [card_toFinset_eq_length_eraseDups, ← hkeys, InsertionMap.keys, List.length_map]
  rfl

/-- The changes that call for attention have as many references as there are reports that do. -/
theorem card_highImpactChanges :
    ((highImpactChanges diff reports).map Change.symbolRef).toFinset.card =
      reports.values.countP fun r => r.level.isHigh := by
  let isHigh : String → Bool := fun ref => (reports.get? ref).any fun r => r.level.isHigh
  have hchosen : (highImpactChanges diff reports).map Change.symbolRef =
      (diff.changes.map Change.symbolRef).filter isHigh := by
    rw [List.filter_map]
    rfl
  calc ((highImpactChanges diff reports).map Change.symbolRef).toFinset.card
      = ((diff.changes.map Change.symbolRef).filter isHigh).eraseDups.length := by
        rw [card_toFinset_eq_length_eraseDups, hchosen]
    _ = (reports.keys.filter isHigh).length := by rw [← filter_eraseDups, hkeys]
    _ = reports.keys.countP isHigh := List.countP_eq_length_filter.symm
    _ = reports.values.countP fun r => r.level.isHigh := reports.countP_keys _

/-- No change is without a report, so only modules break callers unassessed. -/
theorem unassessedBreaking_eq :
    unassessedBreaking diff reports = diff.moduleChanges.countP ModuleChange.breaking := by
  have hnone : (diff.changes.countP fun c => c.breaking && !reports.contains c.symbolRef) = 0 := by
    refine List.countP_eq_zero.mpr fun c hc => ?_
    have hmem : c.symbolRef ∈ reports.keys := by
      rw [hkeys, List.mem_eraseDups]
      exact List.mem_map_of_mem hc
    simp [InsertionMap.contains_iff.mpr hmem]
  rw [unassessedBreaking, hnone, Nat.zero_add]

end References

/-! ## Blast radii -/

/-- The blast radius of a report is the number of its callers. -/
theorem blastRadius_ofNode? (config : Config) (g : CallGraph) (entryPoints : List String)
    (exported : InsertionMap String String) (symbolRef : String) (node? : Option String) :
    let report := Report.ofNode? config g entryPoints exported symbolRef node?
    report.blastRadius = (report.directCallers ++ report.transitiveCallers).length := by
  cases node? with
  | none => rfl
  | some node => rfl

theorem exists_eq_ofNode? {config : Config} {g : CallGraph} {entryPoints : List String}
    {diff : Diff} {report : Report}
    (h : report ∈ (reportAll config g entryPoints diff).values) :
    ∃ ref node?, report =
      .ofNode? config g entryPoints (exportIndex [diff.newer, diff.older]) ref node? := by
  obtain ⟨e, he, rfl⟩ := List.mem_map.mp h
  obtain ⟨e', _, rfl⟩ := List.mem_map.mp he
  exact ⟨e'.1, nodeOf? g e'.2, rfl⟩

theorem blastRadius_nonpos_iff {config : Config} {g : CallGraph} {entryPoints : List String}
    {diff : Diff} {report : Report}
    (h : report ∈ (reportAll config g entryPoints diff).values) :
    report.blastRadius ≤ 0 ↔ report.directCallers = [] ∧ report.transitiveCallers = [] := by
  obtain ⟨ref, node?, rfl⟩ := exists_eq_ofNode? h
  rw [blastRadius_ofNode?, ← List.append_eq_nil_iff, ← List.length_eq_zero_iff]
  omega

/-! ## Main statement -/

/-- The accounts of a summary agree: the levels with the different references of the changes,
what is unassessed with the breaking modules and so with the bump, the changes that call for
attention with the two highest levels, the total with the sum of the blast radii, and the
most impacted symbol with there being callers. -/
theorem ofReports_accounts (config : Config) (comparator : TypeComparator)
    (older newer : Snapshot) (g : CallGraph) (entryPoints : List String) :
    let diff := Diff.between comparator older newer
    let reports := reportAll config g entryPoints diff
    let summary := Summary.ofReports diff reports
    let refs := diff.changes.map Change.symbolRef
    (summary.criticalImpact + summary.highImpact + summary.mediumImpact + summary.lowImpact +
        summary.noImpact = refs.toFinset.card ∧
      refs.toFinset.card ≤ summary.totalChanges ∧
      (refs.toFinset.card = summary.totalChanges ↔ refs.Nodup)) ∧
    (summary.unassessedBreaking = diff.moduleChanges.countP ModuleChange.breaking ∧
      (0 < summary.unassessedBreaking ↔ diff.bump = .major)) ∧
    ((highImpactChanges diff reports).map Change.symbolRef).toFinset.card =
      summary.criticalImpact + summary.highImpact ∧
    (summary.totalBlastRadius = totalBlastRadius reports ∧
      totalBlastRadius reports = (reports.values.map Report.blastRadius).sum) ∧
    (summary.mostImpacted.symbol = none ↔
      ∀ report ∈ reports.values, report.directCallers = [] ∧ report.transitiveCallers = []) := by
  intro diff reports summary refs
  have hkeys : reports.keys = refs.eraseDups :=
    (InsertionMap.keys_mapValues _ _).trans (keys_leadChanges _)
  have htotal : summary.totalChanges = refs.length := List.length_map _ |>.symm
  have hunassessed : summary.unassessedBreaking =
      diff.moduleChanges.countP ModuleChange.breaking := unassessedBreaking_eq hkeys
  refine ⟨⟨?_, ?_, ?_⟩, ⟨hunassessed, ?_⟩, ?_, ⟨rfl, totalBlastRadius_eq_sum reports⟩, ?_⟩
  · exact (countLevel_add_eq_size reports).trans (size_eq_card hkeys)
  · rw [htotal]
    exact List.toFinset_card_le refs
  · rw [htotal, List.card_toFinset]
    exact (List.dedup_sublist refs).length_eq.trans List.dedup_eq_self
  · rw [hunassessed, List.countP_pos_iff]
    exact Diff.exists_breaking_module_iff
  · exact (card_highImpactChanges hkeys).trans (countLevel_add_eq_countP_isHigh reports).symm
  · exact (symbol_mostImpacted_eq_none_iff reports).trans
      (forall₂_congr fun report hreport => blastRadius_nonpos_iff hreport)

/-- A symbol that two modules export has one report for its two changes, and both modules
break callers. -/
example :
    let f : Export := { name := "f", symbol := some { id := "#f", name := "f" } }
    let older : Snapshot :=
      ⟨"older", "", "", [⟨"m", [f], "", by simp⟩, ⟨"n", [f], "", by simp⟩], none, {}, by simp⟩
    let diff := Diff.between .heuristic older (.empty "newer" "")
    let reports := reportAll .default (.build [] [⟨"a", "#f", 1, false⟩]) [] diff
    Summary.ofReports diff reports = ⟨2, 0, 0, 0, 1, 0, 1, ⟨some "#f", 1⟩, 2⟩ := by
  decide +kernel

end Impact

end ApiDrift
