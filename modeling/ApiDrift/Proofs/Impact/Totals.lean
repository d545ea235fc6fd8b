import ApiDrift.Impact.Summary
import Mathlib.Algebra.Ring.Int.Defs
import Mathlib.Algebra.Ring.Nat
import Mathlib.Logic.Function.Basic
import Mathlib.Order.Bounds.Defs

set_option autoImplicit false

/-!
# What a summary adds up

A summary is read off the reports whatever they are: their keys need not be those of changes,
and their radii may be negative.  It counts the reports level by level and adds up the radii.
While the reports come in one by one, one of them leads, and at any time that is the first one
of the largest radius so far, as long as this is positive.  One pass over the reports is enough
for all of this.
-/

namespace ApiDrift.Impact

/-! ## Levels -/

/-- Reports counted level by level are counted once, if no level is repeated. -/
theorem sum_countLevel {levels : List Level} (h : levels.Nodup)
    (reports : InsertionMap String Report) :
    (levels.map fun level => countLevel level reports).sum =
      reports.values.countP fun r => r.level ∈ levels := by
  induction levels with
  | nil => simp
  | cons level levels ih =>
    obtain ⟨hother, hrest⟩ := List.nodup_cons.mp h
    -- split by the first level: no report of that level is counted again by the others
    rw [List.map_cons, List.sum_cons, ih hrest, countLevel,
      List.countP_eq_countP_filter_add _ (fun r : Report => r.level ∈ level :: levels)
        fun r => r.level = level, List.countP_filter, List.countP_filter]
    congr 1
    · refine List.countP_congr fun r _ => ?_
      by_cases hsame : r.level = level <;> simp [hsame]
    · refine List.countP_congr fun r _ => ?_
      by_cases hsame : r.level = level <;> simp [hsame, hother]

/-- Every report is of one level. -/
theorem sum_countLevel_all (reports : InsertionMap String Report) :
    (Level.all.map fun level => countLevel level reports).sum = reports.size := by
  have hall : (reports.values.countP fun r => r.level ∈ Level.all) = reports.values.length := by
    refine List.countP_eq_length.mpr fun r _ => ?_
    cases r.level <;> rfl
  rw [sum_countLevel (by decide), hall, InsertionMap.values, List.length_map, InsertionMap.size]

theorem Summary.count_ofReports (d : Diff) (reports : InsertionMap String Report) (level : Level) :
    (ofReports d reports).count level = countLevel level reports := by
  cases level <;> rfl

/-! ## Blast radii -/

theorem totalBlastRadius_eq_sum (reports : InsertionMap String Report) :
    totalBlastRadius reports = (reports.values.map Report.blastRadius).sum := by
  rw [totalBlastRadius, List.sum_eq_foldl, List.foldl_map]

/-! ## The first of the largest -/

/-- A leader after entries that came in behind another one: its radius is the largest of all,
and its symbol the first that has this radius, if no earlier one does. -/
structure Leader.After (start : Leader) (entries : List (String × Report)) (leader : Leader) :
    Prop where
  start_le : start.radius ≤ leader.radius
  radius_le : ∀ e ∈ entries, e.2.blastRadius ≤ leader.radius
  attained : leader.radius = start.radius ∨ ∃ e ∈ entries, e.2.blastRadius = leader.radius
  symbol_eq : leader.symbol =
    if start.radius < leader.radius then
      (entries.find? fun e => e.2.blastRadius = leader.radius).map Prod.fst
    else start.symbol

namespace Leader

theorem after_nil (start : Leader) : After start [] start where
  start_le := Int.le_refl _
  radius_le := by simp
  attained := .inl rfl
  symbol_eq := by simp

section Cons

variable {start leader : Leader} {e : String × Report} {entries : List (String × Report)}

/-- An entry that beats the start leads until it is beaten itself. -/
theorem After.cons_of_lt (hlarger : start.radius < e.2.blastRadius)
    (h : After ⟨some e.1, e.2.blastRadius⟩ entries leader) : After start (e :: entries) leader where
  start_le := Int.le_trans (Int.le_of_lt hlarger) h.start_le
  radius_le := List.forall_mem_cons.mpr ⟨h.start_le, h.radius_le⟩
  attained := by
    rcases h.attained with hsame | ⟨e', he', hsame⟩
    · exact .inr ⟨e, List.mem_cons_self, hsame.symm⟩
    · exact .inr ⟨e', List.mem_cons_of_mem e he', hsame⟩
  symbol_eq := by
    have hbeaten : start.radius < leader.radius := Int.lt_of_lt_of_le hlarger h.start_le
    rw [if_pos hbeaten, h.symbol_eq]
    by_cases hsame : e.2.blastRadius = leader.radius
    · simp [hsame]
    · have hlater : e.2.blastRadius < leader.radius :=
        Int.lt_iff_le_and_ne.mpr ⟨h.start_le, hsame⟩
      rw [if_pos hlater, List.find?_cons_of_neg (by simpa using hsame)]

/-- An entry that does not beat the start makes no difference. -/
theorem After.cons_of_le (hstays : e.2.blastRadius ≤ start.radius)
    (h : After start entries leader) : After start (e :: entries) leader where
  start_le := h.start_le
  radius_le := List.forall_mem_cons.mpr ⟨Int.le_trans hstays h.start_le, h.radius_le⟩
  attained := by
    rcases h.attained with hsame | ⟨e', he', hsame⟩
    · exact .inl hsame
    · exact .inr ⟨e', List.mem_cons_of_mem e he', hsame⟩
  symbol_eq := by
    rw [h.symbol_eq]
    split
    · rename_i hbeaten
      have hother : e.2.blastRadius ≠ leader.radius :=
        Int.ne_of_lt (Int.lt_of_le_of_lt hstays hbeaten)
      rw [List.find?_cons_of_neg (by simpa using hother)]
    · rfl

end Cons

theorem after_foldl (start : Leader) (entries : List (String × Report)) :
    After start entries
      (entries.foldl (fun leader e => leader.next e.1 e.2.blastRadius) start) := by
  induction entries generalizing start with
  | nil => exact after_nil start
  | cons e entries ih =>
    rw [List.foldl_cons, next]
    split
    · rename_i hlarger
      exact .cons_of_lt hlarger (ih _)
    · rename_i hstays
      exact .cons_of_le (Int.not_lt.mp hstays) (ih start)

end Leader

theorem after_mostImpacted (reports : InsertionMap String Report) :
    Leader.After {} reports.entries (mostImpacted reports) :=
  Leader.after_foldl {} reports.entries

/-- The radius of the leader is the largest one, but zero if none is positive. -/
theorem isGreatest_mostImpacted (reports : InsertionMap String Report) :
    IsGreatest (insert 0 {radius | ∃ r ∈ reports.values, r.blastRadius = radius})
      (mostImpacted reports).radius := by
  have h := after_mostImpacted reports
  have hentries (x : Int) :
      (∃ r ∈ reports.values, r.blastRadius = x) ↔ ∃ e ∈ reports.entries, e.2.blastRadius = x := by
    simp only [InsertionMap.values, List.mem_map, exists_exists_and_eq_and]
  constructor
  · rcases h.attained with hzero | hattained
    · exact .inl hzero
    · exact .inr ((hentries _).mpr hattained)
  · rintro x (rfl | hx)
    · exact h.start_le
    · obtain ⟨e, he, rfl⟩ := (hentries x).mp hx
      exact h.radius_le e he

/-- Nothing leads exactly if no radius is positive. -/
theorem symbol_mostImpacted_eq_none_iff (reports : InsertionMap String Report) :
    (mostImpacted reports).symbol = none ↔ ∀ r ∈ reports.values, r.blastRadius ≤ 0 := by
  have h := after_mostImpacted reports
  rw [InsertionMap.values, List.forall_mem_map, h.symbol_eq]
  split
  · rename_i hpositive
    obtain ⟨e, he, hlargest⟩ := h.attained.resolve_left (Int.ne_of_gt hpositive)
    refine iff_of_false ?_ fun hbound => ?_
    · rw [Option.map_eq_none_iff, List.find?_eq_none]
      exact fun hnone => hnone e he (decide_eq_true hlargest)
    · exact Int.not_le.mpr (hlargest ▸ hpositive) (hbound e he)
  · rename_i hnone
    exact iff_of_true rfl fun e he => Int.le_trans (h.radius_le e he) (Int.not_lt.mp hnone)

/-! ## One pass -/

/-- What is known of the reports that a pass has come to: how many there are of each level, the
sum of their radii, and the leader. -/
structure Accumulation where
  counts : Level → Nat := fun _ => 0
  total : Int := 0
  leader : Leader := {}

namespace Accumulation

/-- One more report is counted at its level and added up, and leads if its radius is larger. -/
def add (a : Accumulation) (e : String × Report) : Accumulation where
  counts := Function.update a.counts e.2.level (a.counts e.2.level + 1)
  total := a.total + e.2.blastRadius
  leader := a.leader.next e.1 e.2.blastRadius

theorem counts_add (a : Accumulation) (e : String × Report) (level : Level) :
    (a.add e).counts level = a.counts level + if e.2.level = level then 1 else 0 := by
  change Function.update a.counts e.2.level (a.counts e.2.level + 1) level = _
  by_cases hsame : e.2.level = level
  · rw [hsame, Function.update_self, if_pos rfl]
  · rw [Function.update_of_ne (Ne.symm hsame), if_neg hsame, Nat.add_zero]

theorem counts_foldl_add (entries : List (String × Report)) (a : Accumulation) (level : Level) :
    (entries.foldl add a).counts level =
      a.counts level + entries.countP fun e => e.2.level = level := by
  induction entries generalizing a with
  | nil => rfl
  | cons e entries ih =>
    rw [List.foldl_cons, ih, counts_add, List.countP_cons, Nat.add_assoc,
      Nat.add_comm (if e.2.level = level then 1 else 0)]
    simp only [decide_eq_true_eq]

theorem total_foldl_add (entries : List (String × Report)) (a : Accumulation) :
    (entries.foldl add a).total =
      entries.foldl (fun total e => total + e.2.blastRadius) a.total :=
  (List.foldl_hom total fun _ _ => rfl).symm

theorem leader_foldl_add (entries : List (String × Report)) (a : Accumulation) :
    (entries.foldl add a).leader =
      entries.foldl (fun leader e => leader.next e.1 e.2.blastRadius) a.leader :=
  (List.foldl_hom leader fun _ _ => rfl).symm

/-- What a pass over all reports comes to. -/
def ofReports (reports : InsertionMap String Report) : Accumulation :=
  reports.entries.foldl add {}

theorem counts_ofReports (reports : InsertionMap String Report) (level : Level) :
    (ofReports reports).counts level = countLevel level reports := by
  rw [ofReports, counts_foldl_add, countLevel, InsertionMap.values, List.countP_map]
  exact Nat.zero_add _

theorem total_ofReports (reports : InsertionMap String Report) :
    (ofReports reports).total = totalBlastRadius reports := by
  rw [ofReports, total_foldl_add, totalBlastRadius, InsertionMap.values, List.foldl_map]

theorem leader_ofReports (reports : InsertionMap String Report) :
    (ofReports reports).leader = mostImpacted reports :=
  leader_foldl_add _ _

end Accumulation

/-- A summary is what one pass over the reports comes to, with the counts over the diff. -/
theorem Summary.ofReports_eq_of_pass (d : Diff) (reports : InsertionMap String Report) :
    let pass := Accumulation.ofReports reports
    Summary.ofReports d reports =
      { totalChanges := d.tally.totalChanges
        criticalImpact := pass.counts .critical
        highImpact := pass.counts .high
        mediumImpact := pass.counts .medium
        lowImpact := pass.counts .low
        noImpact := pass.counts .none
        totalBlastRadius := pass.total
        mostImpacted := pass.leader
        unassessedBreaking := Impact.unassessedBreaking d reports } := by
  simp only [Accumulation.counts_ofReports, Accumulation.total_ofReports,
    Accumulation.leader_ofReports]
  rfl

/-! ## Main statement -/

/-- A summary counts the reports of each level, every report once, and adds up their radii.
The largest radius is that of the first report that has it; if none is positive it is zero, and
no symbol has it.  Behind the critical reports it counts the breaking changes without a report
and the breaking modules. -/
theorem ofReports_totals (d : Diff) (reports : InsertionMap String Report) :
    let summary := Summary.ofReports d reports
    let largest := summary.mostImpacted.radius
    ((∀ level, summary.count level = (reports.values.filter fun r => r.level = level).length) ∧
      (Level.all.map summary.count).sum = reports.size) ∧
    (summary.totalBlastRadius = (reports.values.map Report.blastRadius).sum ∧
      summary.totalBlastRadius = totalBlastRadius reports) ∧
    (IsGreatest (insert 0 {radius | ∃ r ∈ reports.values, r.blastRadius = radius}) largest ∧
      summary.mostImpacted.symbol =
        if 0 < largest then
          (reports.entries.find? fun e => e.2.blastRadius = largest).map Prod.fst
        else none) ∧
    summary.unassessedBreaking =
        (d.changes.filter fun c => c.breaking = true ∧ c.symbolRef ∉ reports.keys).length +
          (d.moduleChanges.filter ModuleChange.breaking).length ∧
      summary.criticalTotal = summary.count .critical + summary.unassessedBreaking := by
  intro summary largest
  have hcount (level : Level) : summary.count level = countLevel level reports :=
    Summary.count_ofReports d reports level
  refine ⟨⟨fun level => ?_, ?_⟩, ⟨totalBlastRadius_eq_sum reports, rfl⟩,
    ⟨isGreatest_mostImpacted reports, (after_mostImpacted reports).symbol_eq⟩, ?_, rfl⟩
  · rw [hcount, countLevel, List.countP_eq_length_filter]
  · rw [← sum_countLevel_all]
    exact congrArg List.sum (List.map_congr_left fun level _ => hcount level)
  · change unassessedBreaking d reports = _
    rw [unassessedBreaking, List.countP_eq_length_filter, List.countP_eq_length_filter]
    congr 3
    funext c
    simp [InsertionMap.contains]

/-- Of three reports the second leads: the first has a negative radius, and the third comes
later with the same one. -/
example :
    let report (radius : Int) (level : Level) : Report :=
      { symbolRef := "m#f", blastRadius := radius, level := level }
    mostImpacted (.ofList [("a", report (-7) .low), ("b", report 3 .low), ("c", report 3 .high)]) =
      ⟨some "b", 3⟩ := by
  decide +kernel

end ApiDrift.Impact
