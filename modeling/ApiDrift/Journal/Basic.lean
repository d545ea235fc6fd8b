import ApiDrift.InsertionMap
import ApiDrift.Journal.Record

set_option autoImplicit false

/-!
# Journals

A journal takes records and keeps those of sufficient severity in the log file
that is open.  Setting it up anew replaces what was set up before; the log files
keep what they hold, and one that is opened again is written on at its end.
-/

namespace ApiDrift

/-- Where the records of a journal go. -/
inductive Journal.Sink where
  | console
  | file (name : String)
  deriving DecidableEq, Repr, Inhabited

/-- What a journal was set up with, and the lines of its log files. -/
structure Journal where
  threshold : Option Journal.Severity
  sinks : List Journal.Sink
  files : InsertionMap String (List String)
  deriving Repr

namespace Journal

/-- The journal before it is set up. -/
def unconfigured : Journal := ⟨none, [], ∅⟩

instance : Inhabited Journal := ⟨unconfigured⟩

/-- Whether records also go to the surroundings of the program, as they do until
the journal is set up. -/
def propagates (j : Journal) : Bool := j.threshold.isNone

/-- The number of the least severity that is kept, zero before the journal is set
up. -/
def level (j : Journal) : Nat := (j.threshold.map Severity.rank).getD 0

/-- Sets up a journal with a console and, if one is named, a log file, which is
there from then on. -/
def setup (j : Journal) (verbose quiet : Bool) (logFile : Option String) : Journal :=
  let threshold := Severity.threshold verbose quiet
  match logFile.filter (· ≠ "") with
  | none => ⟨some threshold, [.console], j.files⟩
  | some name => ⟨some threshold, [.console, .file name], j.files.claim name []⟩

/-- What a sink makes of a line. -/
def Sink.write (files : InsertionMap String (List String)) (text : String) :
    Sink → InsertionMap String (List String)
  | console => files
  | file name => files.alter name fun lines => lines.getD [] ++ [text]

/-- Takes in a record and, if it is severe enough, writes its line to every sink. -/
def record (j : Journal) (r : Record) : Journal :=
  if j.level ≤ r.severity.rank then
    { j with files := j.sinks.foldl (fun files sink => sink.write files r.line) j.files }
  else j

/-- The log files with their lines, by name. -/
def filesByName (j : Journal) : List (String × List String) :=
  j.files.entries.mergeSort fun a b => decide (a.1 ≤ b.1)

end Journal

end ApiDrift
