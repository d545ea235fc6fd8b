import ApiDrift.Impact.Setting

set_option autoImplicit false

/-!
# Configurations

A configuration is settings whose checks all pass.  It keeps the settings as they
were given and reads the thresholds off them as numbers; that the checks pass puts
the thresholds in order.
-/

namespace ApiDrift.Impact

/-- Settings whose checks all pass.  A level is reached once the blast radius is
at least its threshold; affected exports raise the level to high or critical on
their own. -/
structure Config where
  settings : Settings
  fault?_eq_none : settings.fault? = none
  deriving DecidableEq, Repr

namespace Config

/-- The configuration of settings, or the fault of the first check that does not
pass. -/
def ofSettings (s : Settings) : Except ConfigError Config :=
  match h : s.fault? with
  | none => .ok ⟨s, h⟩
  | some e => .error e

/-- The configuration of the default settings. -/
def default : Config := ⟨{}, rfl⟩

instance : Inhabited Config := ⟨default⟩

/-! ## Thresholds -/

/-- The least blast radius of low impact. -/
def low (c : Config) : Int := c.settings.low.toInt

/-- The least blast radius of medium impact. -/
def medium (c : Config) : Int := c.settings.medium.toInt

/-- The least blast radius of high impact. -/
def high (c : Config) : Int := c.settings.high.toInt

/-- The least blast radius of critical impact. -/
def critical (c : Config) : Int := c.settings.critical.toInt

/-- The least number of affected exports of high impact. -/
def highExport (c : Config) : Int := c.settings.highExport.toInt

/-- The least number of affected exports of critical impact. -/
def criticalExport (c : Config) : Int := c.settings.criticalExport.toInt

/-- Whether entry points without callers are raised by a level. -/
def elevates (c : Config) : Bool := c.settings.elevate.isOn

/-- How many steps callers are followed, if there is a limit. -/
def maxDepth (c : Config) : Option Nat :=
  if c.settings.maxDepth = .absent then none else some c.settings.maxDepth.toInt.toNat

/-! ## Order of the thresholds -/

theorem holds_of_mem_checks (c : Config) {k : Check} (mem : k ∈ c.settings.checks) :
    k.comparison.holds k.left.toInt k.right.toInt = k.passing :=
  k.holds_of_fault?_eq_none (List.findSome?_eq_none_iff.mp c.fault?_eq_none k mem)

theorem low_lt_medium (c : Config) : c.low < c.medium :=
  Comparison.atLeast_fails_iff.mp <|
    c.holds_of_mem_checks
      (k := ⟨c.settings.low, .atLeast, c.settings.medium, false,
        .notIncreasing c.settings.thresholds⟩)
      (by simp [Settings.checks])

theorem medium_lt_high (c : Config) : c.medium < c.high :=
  Comparison.atLeast_fails_iff.mp <|
    c.holds_of_mem_checks
      (k := ⟨c.settings.medium, .atLeast, c.settings.high, false,
        .notIncreasing c.settings.thresholds⟩)
      (by simp [Settings.checks])

theorem high_lt_critical (c : Config) : c.high < c.critical :=
  Comparison.atLeast_fails_iff.mp <|
    c.holds_of_mem_checks
      (k := ⟨c.settings.high, .atLeast, c.settings.critical, false,
        .notIncreasing c.settings.thresholds⟩)
      (by simp [Settings.checks])

theorem highExport_lt_criticalExport (c : Config) : c.highExport < c.criticalExport :=
  Comparison.less_holds_iff.mp <|
    c.holds_of_mem_checks
      (k := ⟨c.settings.highExport, .less, c.settings.criticalExport, true,
        .exportThresholds⟩)
      (by simp [Settings.checks])

theorem one_le_of_mem_maxDepth (c : Config) {depth : Nat} (h : depth ∈ c.maxDepth) :
    1 ≤ depth := by
  unfold maxDepth at h
  split at h
  · simp at h
  · rename_i present
    have positive : 1 ≤ c.settings.maxDepth.toInt :=
      Comparison.less_fails_iff.mp <|
        c.holds_of_mem_checks (k := ⟨c.settings.maxDepth, .less, .number 1, false, .depthLimit⟩)
          (by simp [Settings.checks, present])
    have same : c.settings.maxDepth.toInt.toNat = depth := Option.some.inj h
    omega

end Config

end ApiDrift.Impact
