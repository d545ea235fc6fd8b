set_option autoImplicit false

/-!
# Records

A record is a message on a named channel with a severity.  All channels stand
under one root, and records are kept from a severity on that two switches decide.
-/

namespace ApiDrift.Journal

/-! ## Severities -/

/-- The severities of records, least first. -/
inductive Severity where
  | debug
  | info
  | warning
  | error
  | critical
  deriving DecidableEq, Repr, Inhabited

namespace Severity

/-- The number of a severity. -/
def rank : Severity → Nat
  | debug => 10
  | info => 20
  | warning => 30
  | error => 40
  | critical => 50

/-- The word for a severity. -/
def word : Severity → String
  | debug => "DEBUG"
  | info => "INFO"
  | warning => "WARNING"
  | error => "ERROR"
  | critical => "CRITICAL"

/-- The least severity that is kept.  Being quiet wins over being verbose. -/
def threshold (verbose quiet : Bool) : Severity :=
  if quiet then error else if verbose then debug else warning

end Severity

/-! ## Channels -/

/-- The channel that all others stand under. -/
def rootChannel : String := "apidelta"

/-- The full name of a channel.  Names that stand under the root already are
taken as they are. -/
def channelName (name : Option String) : String :=
  match name.filter (· ≠ "") with
  | none => rootChannel
  | some name =>
    if name = rootChannel || (rootChannel ++ ".").toList.isPrefixOf name.toList then name
    else rootChannel ++ "." ++ name

/-! ## Records -/

/-- One message on a channel. -/
structure Record where
  severity : Severity
  channel : String
  message : String
  deriving DecidableEq, Repr, Inhabited

/-- The line of a record in a log file, its severity padded to eight characters. -/
def Record.line (r : Record) : String :=
  String.ofList (r.severity.word.toList.rightpad 8 ' ') ++ " " ++ r.channel ++ ": " ++ r.message

end ApiDrift.Journal
