import ApiDrift.Impact.Report

set_option autoImplicit false

/-!
# Impact summaries

The reports of a release are counted by level and their blast radii added up.
Breaking changes that have no report are counted apart, and so are breaking module
changes, since nothing is known of their callers.
-/

namespace ApiDrift.Impact

/-- The symbol with the largest blast radius so far; none while no radius is
positive. -/
structure Leader where
  symbol : Option String := none
  radius : Int := 0
  deriving DecidableEq, Repr, Inhabited

/-- A symbol takes the lead only with a strictly larger blast radius. -/
def Leader.next (leader : Leader) (ref : String) (radius : Int) : Leader :=
  if leader.radius < radius then ⟨some ref, radius⟩ else leader

/-- Counts over the reports of a release. -/
structure Summary where
  totalChanges : Nat
  criticalImpact : Nat
  highImpact : Nat
  mediumImpact : Nat
  lowImpact : Nat
  noImpact : Nat
  totalBlastRadius : Int
  mostImpacted : Leader
  unassessedBreaking : Nat
  deriving DecidableEq, Repr, Inhabited

/-- How many reports are of a level. -/
def countLevel (level : Level) (reports : InsertionMap String Report) : Nat :=
  reports.values.countP fun r => r.level = level

/-- The sum of the blast radii. -/
def totalBlastRadius (reports : InsertionMap String Report) : Int :=
  reports.values.foldl (fun total r => total + r.blastRadius) 0

/-- The first report of the largest blast radius. -/
def mostImpacted (reports : InsertionMap String Report) : Leader :=
  reports.entries.foldl (fun leader e => leader.next e.1 e.2.blastRadius) {}

/-- How many breaking changes have no report, and how many modules break callers
as a whole. -/
def unassessedBreaking (d : Diff) (reports : InsertionMap String Report) : Nat :=
  (d.changes.countP fun c => c.breaking && !reports.contains c.symbolRef) +
    d.moduleChanges.countP ModuleChange.breaking

/-- The changes of a diff that call for attention, in order. -/
def highImpactChanges (d : Diff) (reports : InsertionMap String Report) : List Change :=
  d.changes.filter fun c => (reports.get? c.symbolRef).any fun r => r.level.isHigh

namespace Summary

/-- The summary of the reports on a diff. -/
def ofReports (d : Diff) (reports : InsertionMap String Report) : Summary where
  totalChanges := d.tally.totalChanges
  criticalImpact := countLevel .critical reports
  highImpact := countLevel .high reports
  mediumImpact := countLevel .medium reports
  lowImpact := countLevel .low reports
  noImpact := countLevel .none reports
  totalBlastRadius := Impact.totalBlastRadius reports
  mostImpacted := Impact.mostImpacted reports
  unassessedBreaking := Impact.unassessedBreaking d reports

/-- The number of reports of a level. -/
def count (s : Summary) : Level → Nat
  | .none => s.noImpact
  | .low => s.lowImpact
  | .medium => s.mediumImpact
  | .high => s.highImpact
  | .critical => s.criticalImpact

/-- Critical reports and breaking changes of unknown blast radius. -/
def criticalTotal (s : Summary) : Nat := s.criticalImpact + s.unassessedBreaking

end Summary

end ApiDrift.Impact
