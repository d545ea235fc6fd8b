import ApiDrift.Failure
import ApiDrift.InsertionMap
import ApiDrift.Text.Quoted

set_option autoImplicit false

/-!
# Settings

Thresholds come as loosely typed settings under fixed names.  This module holds
the settings, the checks on them in the order in which they are made, and the
fault of the first check that does not pass.  Only numbers can be compared, so a
check fails too when it meets anything else.
-/

namespace ApiDrift.Impact

/-! ## Values -/

/-- The value of one setting. -/
inductive Setting where
  | absent
  | number (value : Int)
  | text (value : String)
  | flag (value : Bool)
  deriving DecidableEq, Repr, Inhabited

/-- What kind of value a setting has. -/
inductive SettingKind where
  | absent
  | number
  | text
  | flag
  deriving DecidableEq, Repr, Inhabited

/-- The word for a kind of value. -/
def SettingKind.word : SettingKind → String
  | absent => "NoneType"
  | number => "int"
  | text => "str"
  | flag => "bool"

namespace Setting

/-- The kind of a value. -/
def kind : Setting → SettingKind
  | absent => .absent
  | number _ => .number
  | text _ => .text
  | flag _ => .flag

/-- The number that a value stands for in a comparison; a flag counts as one or
zero. -/
def number? : Setting → Option Int
  | number n => some n
  | flag b => some b.toInt
  | absent | text _ => none

/-- The number that a value stands for, zero where it stands for none. -/
def toInt (s : Setting) : Int := s.number?.getD 0

@[simp] theorem toInt_number (n : Int) : (number n).toInt = n := rfl

/-- Whether a value switches something on. -/
def isOn : Setting → Bool
  | absent => false
  | number n => n != 0
  | text t => t != ""
  | flag b => b

/-- How a value is shown in a report. -/
def render : Setting → String
  | absent => "None"
  | number n => toString n
  | text t => Text.quote t
  | flag b => if b then "True" else "False"

end Setting

/-! ## Comparisons -/

/-- The ways in which two settings are compared. -/
inductive Comparison where
  | less
  | atMost
  | atLeast
  deriving DecidableEq, Repr, Inhabited

namespace Comparison

/-- The sign of a comparison. -/
def sign : Comparison → String
  | less => "<"
  | atMost => "<="
  | atLeast => ">="

/-- Whether a comparison holds of two numbers. -/
def holds : Comparison → Int → Int → Bool
  | less, a, b => a < b
  | atMost, a, b => a ≤ b
  | atLeast, a, b => b ≤ a

theorem less_holds_iff {a b : Int} : less.holds a b = true ↔ a < b := by simp [holds]

theorem less_fails_iff {a b : Int} : less.holds a b = false ↔ b ≤ a := by simp [holds]

theorem atMost_holds_iff {a b : Int} : atMost.holds a b = true ↔ a ≤ b := by simp [holds]

theorem atLeast_fails_iff {a b : Int} : atLeast.holds a b = false ↔ a < b := by simp [holds]

end Comparison

/-! ## Faults -/

/-- Why settings do not make up a configuration. -/
inductive ConfigError where
  | lowThreshold
  | notIncreasing (thresholds : List Setting)
  | exportThresholds
  | depthLimit
  | incomparable (comparison : Comparison) (left right : SettingKind)
  deriving DecidableEq, Repr, Inhabited

/-- How a fault of the settings is reported: numbers out of order as values, and what
is no number by its type. -/
def ConfigError.failure : ConfigError → Failure
  | lowThreshold => ⟨.value, "low_threshold must be at least 1"⟩
  | notIncreasing thresholds =>
    ⟨.value, "Impact thresholds must be strictly increasing, got [" ++
      ", ".intercalate (thresholds.map Setting.render) ++ "]"⟩
  | exportThresholds => ⟨.value, "Export thresholds must satisfy 1 <= high < critical"⟩
  | depthLimit => ⟨.value, "max_depth must be at least 1"⟩
  | incomparable comparison left right =>
    ⟨.type, "'" ++ comparison.sign ++ "' not supported between instances of '" ++ left.word ++
      "' and '" ++ right.word ++ "'"⟩

/-! ## Checks -/

/-- One check: a comparison of two settings, the outcome that passes, and the
fault of the other outcome. -/
structure Check where
  left : Setting
  comparison : Comparison
  right : Setting
  passing : Bool
  fault : ConfigError
  deriving DecidableEq, Repr, Inhabited

/-- The fault of a check that does not pass. -/
def Check.fault? (c : Check) : Option ConfigError :=
  match c.left.number?, c.right.number? with
  | some a, some b => if c.comparison.holds a b = c.passing then none else some c.fault
  | _, _ => some (.incomparable c.comparison c.left.kind c.right.kind)

theorem Check.holds_of_fault?_eq_none {c : Check} (h : c.fault? = none) :
    c.comparison.holds c.left.toInt c.right.toInt = c.passing := by
  unfold fault? at h
  split at h
  · rename_i a b ha hb
    split at h
    · rename_i holds
      simpa [Setting.toInt, ha, hb] using holds
    · simp at h
  · simp at h

/-! ## The settings of an analysis -/

/-- All settings of an analysis. -/
structure Settings where
  low : Setting := .number 1
  medium : Setting := .number 3
  high : Setting := .number 10
  critical : Setting := .number 25
  highExport : Setting := .number 2
  criticalExport : Setting := .number 5
  elevate : Setting := .flag true
  maxDepth : Setting := .absent
  deriving DecidableEq, Repr, Inhabited

namespace Settings

/-- The settings that a mapping gives, with the defaults for the others.  Names
that are not known are ignored. -/
def ofMap (m : InsertionMap String Setting) : Settings :=
  let defaults : Settings := {}
  { low := (m.get? "low_threshold").getD defaults.low
    medium := (m.get? "medium_threshold").getD defaults.medium
    high := (m.get? "high_threshold").getD defaults.high
    critical := (m.get? "critical_threshold").getD defaults.critical
    highExport := (m.get? "high_export_threshold").getD defaults.highExport
    criticalExport := (m.get? "critical_export_threshold").getD defaults.criticalExport
    elevate := (m.get? "elevate_isolated_entry_points").getD defaults.elevate
    maxDepth := (m.get? "max_depth").getD defaults.maxDepth }

/-- The settings under their names. -/
def entries (s : Settings) : List (String × Setting) :=
  [("low_threshold", s.low), ("medium_threshold", s.medium), ("high_threshold", s.high),
   ("critical_threshold", s.critical), ("high_export_threshold", s.highExport),
   ("critical_export_threshold", s.criticalExport),
   ("elevate_isolated_entry_points", s.elevate), ("max_depth", s.maxDepth)]

/-- The mapping of the settings under their names. -/
def toMap (s : Settings) : InsertionMap String Setting := .ofList s.entries

/-- The thresholds of the levels, lowest first. -/
def thresholds (s : Settings) : List Setting := [s.low, s.medium, s.high, s.critical]

/-- The checks in the order in which they are made.  An absent depth limit is not
checked. -/
def checks (s : Settings) : List Check :=
  [⟨s.low, .less, .number 1, false, .lowThreshold⟩,
   ⟨s.low, .atLeast, s.medium, false, .notIncreasing s.thresholds⟩,
   ⟨s.medium, .atLeast, s.high, false, .notIncreasing s.thresholds⟩,
   ⟨s.high, .atLeast, s.critical, false, .notIncreasing s.thresholds⟩,
   ⟨.number 1, .atMost, s.highExport, true, .exportThresholds⟩,
   ⟨s.highExport, .less, s.criticalExport, true, .exportThresholds⟩] ++
  if s.maxDepth = .absent then [] else [⟨s.maxDepth, .less, .number 1, false, .depthLimit⟩]

/-- The fault of the first check that does not pass. -/
def fault? (s : Settings) : Option ConfigError := s.checks.findSome? Check.fault?

end Settings

end ApiDrift.Impact
