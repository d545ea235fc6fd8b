import ApiDrift.Impact.Config

set_option autoImplicit false

/-!
# Which settings make up a configuration

Settings make up a configuration exactly if they are numbers in the order that the checks ask
for.  The checks are made one after the other, so where they do not pass, the failure that is
reported, kind and text, is that of the first two settings that are out of order or cannot be
compared, whatever comes behind them.  Only the known names of a mapping are read.
-/

namespace ApiDrift.Impact

/-! ## Settings in order -/

namespace Setting

/-- Two settings are numbers, and the first one is not larger than the second one. -/
def Le (a b : Setting) : Prop := ∃ m ∈ a.number?, ∃ n ∈ b.number?, m ≤ n

/-- Two settings are numbers, and the first one is smaller than the second one. -/
def Lt (a b : Setting) : Prop := ∃ m ∈ a.number?, ∃ n ∈ b.number?, m < n

end Setting

namespace Settings

/-- The thresholds of the levels are positive numbers, each larger than the one before. -/
structure LevelsOrdered (s : Settings) : Prop where
  low : (Setting.number 1).Le s.low
  medium : s.low.Lt s.medium
  high : s.medium.Lt s.high
  critical : s.high.Lt s.critical

/-- The thresholds of the affected exports are positive numbers, the second one larger than the
first one. -/
structure ExportsOrdered (s : Settings) : Prop where
  highExport : (Setting.number 1).Le s.highExport
  criticalExport : s.highExport.Lt s.criticalExport

/-- All thresholds are in order, and the depth limit is a positive number or absent. -/
structure Ordered (s : Settings) : Prop extends LevelsOrdered s, ExportsOrdered s where
  maxDepth : s.maxDepth = .absent ∨ (Setting.number 1).Le s.maxDepth

end Settings

/-! ## Failures -/

/-- The failure of two settings that are not in order: a given one if both are numbers, and else
that the comparison does not go with their types. -/
def failureOf (left : Setting) (sign : String) (right : Setting) (disorder : Failure) : Failure :=
  if left.number?.isSome ∧ right.number?.isSome then disorder
  else
    ⟨.type, "'" ++ sign ++ "' not supported between instances of '" ++ left.kind.word ++
      "' and '" ++ right.kind.word ++ "'"⟩

namespace Settings

/-- The failure of level thresholds that do not increase shows all four of them. -/
def levelsFailure (s : Settings) : Failure :=
  ⟨.value, "Impact thresholds must be strictly increasing, got [" ++
    ", ".intercalate ([s.low, s.medium, s.high, s.critical].map Setting.render) ++ "]"⟩

/-- The failure of export thresholds that are not in order. -/
def exportsFailure : Failure := ⟨.value, "Export thresholds must satisfy 1 <= high < critical"⟩

/-- The failure of settings is that of the first two that are not in order. -/
inductive FirstFailure (s : Settings) : Failure → Prop
  | low (h : ¬ (Setting.number 1).Le s.low) :
    FirstFailure s
      (failureOf s.low "<" (.number 1) ⟨.value, "low_threshold must be at least 1"⟩)
  | medium (hlow : (Setting.number 1).Le s.low) (h : ¬ s.low.Lt s.medium) :
    FirstFailure s (failureOf s.low ">=" s.medium s.levelsFailure)
  | high (hlow : (Setting.number 1).Le s.low) (hmedium : s.low.Lt s.medium)
      (h : ¬ s.medium.Lt s.high) :
    FirstFailure s (failureOf s.medium ">=" s.high s.levelsFailure)
  | critical (hlow : (Setting.number 1).Le s.low) (hmedium : s.low.Lt s.medium)
      (hhigh : s.medium.Lt s.high) (h : ¬ s.high.Lt s.critical) :
    FirstFailure s (failureOf s.high ">=" s.critical s.levelsFailure)
  | highExport (hlevels : s.LevelsOrdered) (h : ¬ (Setting.number 1).Le s.highExport) :
    FirstFailure s (failureOf (.number 1) "<=" s.highExport exportsFailure)
  | criticalExport (hlevels : s.LevelsOrdered) (hhigh : (Setting.number 1).Le s.highExport)
      (h : ¬ s.highExport.Lt s.criticalExport) :
    FirstFailure s (failureOf s.highExport "<" s.criticalExport exportsFailure)
  | maxDepth (hlevels : s.LevelsOrdered) (hexports : s.ExportsOrdered)
      (hpresent : s.maxDepth ≠ .absent) (h : ¬ (Setting.number 1).Le s.maxDepth) :
    FirstFailure s
      (failureOf s.maxDepth "<" (.number 1) ⟨.value, "max_depth must be at least 1"⟩)

end Settings

/-! ## Single checks -/

namespace Check

variable {k : Check} {a b : Setting} {disorder : ConfigError}

theorem fault?_eq_none_iff :
    k.fault? = none ↔
      ∃ m ∈ k.left.number?, ∃ n ∈ k.right.number?, k.comparison.holds m n = k.passing := by
  unfold fault?
  cases k.left.number? <;> cases k.right.number? <;> simp

/-- A check that does not pass fails with its own fault, unless it is not given two numbers. -/
theorem failure_of_fault?_eq_some {e : ConfigError} (h : k.fault? = some e) :
    e.failure = failureOf k.left k.comparison.sign k.right k.fault.failure := by
  unfold fault? at h
  unfold failureOf
  split at h
  · rename_i m n hleft hright
    split at h
    · cases h
    · cases h
      simp [hleft, hright]
  · rename_i hnumbers
    cases h
    rw [if_neg, ConfigError.failure]
    intro hboth
    obtain ⟨m, hleft⟩ := Option.isSome_iff_exists.mp hboth.1
    obtain ⟨n, hright⟩ := Option.isSome_iff_exists.mp hboth.2
    exact hnumbers m n hleft hright

theorem fault?_less_fails_iff :
    fault? ⟨a, .less, b, false, disorder⟩ = none ↔ b.Le a := by
  simp only [fault?_eq_none_iff, Comparison.less_fails_iff, Setting.Le]
  constructor
  · rintro ⟨m, hm, n, hn, hle⟩
    exact ⟨n, hn, m, hm, hle⟩
  · rintro ⟨n, hn, m, hm, hle⟩
    exact ⟨m, hm, n, hn, hle⟩

theorem fault?_less_holds_iff :
    fault? ⟨a, .less, b, true, disorder⟩ = none ↔ a.Lt b := by
  simp only [fault?_eq_none_iff, Comparison.less_holds_iff, Setting.Lt]

theorem fault?_atMost_holds_iff :
    fault? ⟨a, .atMost, b, true, disorder⟩ = none ↔ a.Le b := by
  simp only [fault?_eq_none_iff, Comparison.atMost_holds_iff, Setting.Le]

theorem fault?_atLeast_fails_iff :
    fault? ⟨a, .atLeast, b, false, disorder⟩ = none ↔ a.Lt b := by
  simp only [fault?_eq_none_iff, Comparison.atLeast_fails_iff, Setting.Lt]

/-- The first failure of a row of checks is that of the first check, or that of the others if
the first check passes. -/
theorem map_failure_findSome?_cons_iff {ks : List Check} {f : Failure} :
    ((k :: ks).findSome? fault?).map ConfigError.failure = some f ↔
      (k.fault? ≠ none ∧ failureOf k.left k.comparison.sign k.right k.fault.failure = f) ∨
        (k.fault? = none ∧ (ks.findSome? fault?).map ConfigError.failure = some f) := by
  rw [List.findSome?_cons]
  cases hfault : k.fault? with
  | none => simp
  | some e =>
    rw [← failure_of_fault?_eq_some hfault]
    simp

end Check

namespace Settings

variable {s : Settings} {f : Failure}

theorem fault?_eq_none_iff : s.fault? = none ↔ s.Ordered := by
  have hdepth : (∀ k ∈ if s.maxDepth = .absent then []
      else [(⟨s.maxDepth, .less, .number 1, false, .depthLimit⟩ : Check)], k.fault? = none) ↔
        s.maxDepth = .absent ∨ (Setting.number 1).Le s.maxDepth := by
    by_cases habsent : s.maxDepth = .absent
    · simp [habsent]
    · simp [habsent, Check.fault?_less_fails_iff]
  rw [fault?, List.findSome?_eq_none_iff, checks, List.forall_mem_append, hdepth]
  simp only [List.forall_mem_cons, List.not_mem_nil, Check.fault?_less_fails_iff,
    Check.fault?_less_holds_iff, Check.fault?_atMost_holds_iff, Check.fault?_atLeast_fails_iff]
  constructor
  · rintro ⟨⟨hlow, hmedium, hhigh, hcritical, hhighExport, hcriticalExport, -⟩, hmaxDepth⟩
    exact ⟨⟨hlow, hmedium, hhigh, hcritical⟩, ⟨hhighExport, hcriticalExport⟩, hmaxDepth⟩
  · rintro ⟨⟨hlow, hmedium, hhigh, hcritical⟩, ⟨hhighExport, hcriticalExport⟩, hmaxDepth⟩
    exact ⟨⟨hlow, hmedium, hhigh, hcritical, hhighExport, hcriticalExport, fun _ h => h.elim⟩,
      hmaxDepth⟩

instance (s : Settings) : Decidable s.Ordered := decidable_of_iff _ fault?_eq_none_iff

/-- The fault of the settings is reported as that of the first two that are not in order. -/
theorem map_failure_fault?_eq_some_iff :
    s.fault?.map ConfigError.failure = some f ↔ s.FirstFailure f := by
  have hdepth : ((if s.maxDepth = .absent then []
      else [(⟨s.maxDepth, .less, .number 1, false, .depthLimit⟩ : Check)]).findSome?
        Check.fault?).map ConfigError.failure = some f ↔
      s.maxDepth ≠ .absent ∧ ¬ (Setting.number 1).Le s.maxDepth ∧
        failureOf s.maxDepth "<" (.number 1) ⟨.value, "max_depth must be at least 1"⟩ = f := by
    by_cases habsent : s.maxDepth = .absent
    · simp [habsent]
    · rw [if_neg habsent, Check.map_failure_findSome?_cons_iff]
      simp [habsent, Check.fault?_less_fails_iff, Comparison.sign, ConfigError.failure]
  simp only [fault?, checks, List.cons_append, List.nil_append,
    Check.map_failure_findSome?_cons_iff, hdepth, Check.fault?_less_fails_iff,
    Check.fault?_less_holds_iff, Check.fault?_atMost_holds_iff, Check.fault?_atLeast_fails_iff,
    ne_eq]
  constructor
  · rintro (⟨h, rfl⟩ | ⟨hlow, ⟨h, rfl⟩ | ⟨hmedium, ⟨h, rfl⟩ | ⟨hhigh, ⟨h, rfl⟩ | ⟨hcritical,
      ⟨h, rfl⟩ | ⟨hhighExport, ⟨h, rfl⟩ | ⟨hcriticalExport, hpresent, h, rfl⟩⟩⟩⟩⟩⟩)
    · exact .low h
    · exact .medium hlow h
    · exact .high hlow hmedium h
    · exact .critical hlow hmedium hhigh h
    · exact .highExport ⟨hlow, hmedium, hhigh, hcritical⟩ h
    · exact .criticalExport ⟨hlow, hmedium, hhigh, hcritical⟩ hhighExport h
    · exact .maxDepth ⟨hlow, hmedium, hhigh, hcritical⟩ ⟨hhighExport, hcriticalExport⟩ hpresent h
  · intro hfailure
    cases hfailure with
    | low h => exact .inl ⟨h, rfl⟩
    | medium hlow h => exact .inr ⟨hlow, .inl ⟨h, rfl⟩⟩
    | high hlow hmedium h => exact .inr ⟨hlow, .inr ⟨hmedium, .inl ⟨h, rfl⟩⟩⟩
    | critical hlow hmedium hhigh h =>
      exact .inr ⟨hlow, .inr ⟨hmedium, .inr ⟨hhigh, .inl ⟨h, rfl⟩⟩⟩⟩
    | highExport hl h =>
      exact .inr ⟨hl.low, .inr ⟨hl.medium, .inr ⟨hl.high, .inr ⟨hl.critical, .inl ⟨h, rfl⟩⟩⟩⟩⟩
    | criticalExport hl hhigh h =>
      exact .inr ⟨hl.low, .inr ⟨hl.medium, .inr ⟨hl.high, .inr ⟨hl.critical,
        .inr ⟨hhigh, .inl ⟨h, rfl⟩⟩⟩⟩⟩⟩
    | maxDepth hl he hpresent h =>
      exact .inr ⟨hl.low, .inr ⟨hl.medium, .inr ⟨hl.high, .inr ⟨hl.critical,
        .inr ⟨he.highExport, .inr ⟨he.criticalExport, hpresent, h, rfl⟩⟩⟩⟩⟩⟩

/-! ## Settings of a mapping -/

/-- The names under which settings are read. -/
def names : List String := ({} : Settings).entries.map Prod.fst

/-- Every setting is the one that the mapping has under its name, or the default. -/
theorem entries_ofMap (m : InsertionMap String Setting) :
    (ofMap m).entries = ({} : Settings).entries.map fun e => (e.1, (m.get? e.1).getD e.2) := rfl

theorem entries_injective {s s' : Settings} (h : s.entries = s'.entries) : s = s' := by
  cases s
  cases s'
  simpa [entries] using h

/-- What a mapping has under other names makes no difference. -/
theorem ofMap_congr {m m' : InsertionMap String Setting}
    (h : ∀ name ∈ names, m'.get? name = m.get? name) : ofMap m' = ofMap m := by
  refine entries_injective ?_
  rw [entries_ofMap, entries_ofMap]
  exact List.map_congr_left fun e he => by rw [h e.1 (List.mem_map_of_mem he)]

/-- Settings are read back from the mapping of them under their names. -/
theorem ofMap_toMap (s : Settings) : ofMap s.toMap = s := by
  simp [ofMap, toMap, InsertionMap.get?_ofList, entries]

end Settings

namespace Config

theorem ofSettings_eq_ok_iff {s : Settings} {c : Config} :
    ofSettings s = .ok c ↔ c.settings = s := by
  unfold ofSettings
  split
  · rename_i hnone
    constructor
    · rintro ⟨rfl⟩
      rfl
    · rintro rfl
      rfl
  · rename_i e hfault
    refine iff_of_false (by simp) ?_
    rintro rfl
    rw [c.fault?_eq_none] at hfault
    cases hfault

theorem ofSettings_eq_error_iff {s : Settings} {e : ConfigError} :
    ofSettings s = .error e ↔ s.fault? = some e := by
  unfold ofSettings
  split
  · rename_i hnone
    simp [hnone]
  · rename_i fault hfault
    simp [hfault]

/-- Without a configuration the first two settings that are not in order are reported. -/
theorem exists_ofSettings_eq_error_iff {s : Settings} {f : Failure} :
    (∃ e, ofSettings s = .error e ∧ e.failure = f) ↔ s.FirstFailure f := by
  simp only [ofSettings_eq_error_iff, ← Settings.map_failure_fault?_eq_some_iff,
    Option.map_eq_some_iff]

theorem exists_ofSettings_eq_ok_iff {s : Settings} :
    (∃ c, ofSettings s = .ok c) ↔ s.Ordered := by
  simp only [ofSettings_eq_ok_iff, ← Settings.fault?_eq_none_iff]
  constructor
  · rintro ⟨c, rfl⟩
    exact c.fault?_eq_none
  · exact fun hnone => ⟨⟨s, hnone⟩, rfl⟩

/-! ## Main statement -/

/-- A mapping gives a configuration exactly if its settings and the defaults for the others are
numbers in order.  The configuration keeps all of them, and its settings give it once more.
Names that are not known make no difference.  Without a configuration there is a failure, whose
kind and text are those of the first two settings that are not in order. -/
theorem ofSettings_ofMap_in_order (m : InsertionMap String Setting) :
    ((∃ c, ofSettings (.ofMap m) = .ok c) ↔ (Settings.ofMap m).Ordered) ∧
    (∀ c, ofSettings (.ofMap m) = .ok c →
      c.settings.entries =
          (({} : Settings).entries.map fun e => (e.1, (m.get? e.1).getD e.2)) ∧
        ofSettings (.ofMap c.settings.toMap) = .ok c) ∧
    (∀ m' : InsertionMap String Setting, (∀ name ∈ Settings.names, m'.get? name = m.get? name) →
      ofSettings (.ofMap m') = ofSettings (.ofMap m)) ∧
    ∀ f : Failure, (∃ e, ofSettings (.ofMap m) = .error e ∧ e.failure = f) ↔
      (Settings.ofMap m).FirstFailure f := by
  refine ⟨exists_ofSettings_eq_ok_iff, fun c hc => ⟨?_, ?_⟩, fun m' hsame => ?_,
    fun f => exists_ofSettings_eq_error_iff⟩
  · rw [ofSettings_eq_ok_iff.mp hc, Settings.entries_ofMap]
  · rw [Settings.ofMap_toMap]
    exact ofSettings_eq_ok_iff.mpr rfl
  · rw [Settings.ofMap_congr hsame]

/-- A name that is not known is passed over.  A threshold that is a text is found before the
next one, which is below all others, and before the depth limit; behind two thresholds that are
out of order it is only shown. -/
theorem ofSettings_ofMap_in_order_text :
    let given : InsertionMap String Setting :=
      .ofList [("verbose", .text "yes"), ("medium_threshold", .number 5)]
    let plain : InsertionMap String Setting := .ofList [("medium_threshold", .number 5)]
    let untyped : InsertionMap String Setting :=
      .ofList [("max_depth", .number 0), ("high_threshold", .number 0),
        ("medium_threshold", .text "5")]
    let disordered : InsertionMap String Setting :=
      .ofList [("low_threshold", .number 5), ("high_threshold", .text "x"),
        ("critical_threshold", .absent)]
    (∃ c, ofSettings (.ofMap given) = .ok c ∧ ofSettings (.ofMap c.settings.toMap) = .ok c ∧
      c.settings.entries =
        (({} : Settings).entries.map fun e => (e.1, (given.get? e.1).getD e.2))) ∧
    ((∀ name ∈ Settings.names, plain.get? name = given.get? name) ∧
      ofSettings (.ofMap plain) = ofSettings (.ofMap given)) ∧
    (Settings.ofMap untyped).FirstFailure
      ⟨.type, "'>=' not supported between instances of 'int' and 'str'"⟩ ∧
    (Settings.ofMap disordered).FirstFailure
      ⟨.value, "Impact thresholds must be strictly increasing, got [5, 3, 'x', None]"⟩ := by
  intro given plain untyped disordered
  obtain ⟨hok, hkept, hsame, -⟩ := ofSettings_ofMap_in_order given
  obtain ⟨-, -, -, huntyped⟩ := ofSettings_ofMap_in_order untyped
  obtain ⟨-, -, -, hdisordered⟩ := ofSettings_ofMap_in_order disordered
  obtain ⟨c, hc⟩ := hok.mpr (by decide +kernel)
  have hnames : ∀ name ∈ Settings.names, plain.get? name = given.get? name := by decide +kernel
  have htype : (Settings.ofMap untyped).fault? = some (.incomparable .atLeast .number .text) := by
    decide +kernel
  have horder : (Settings.ofMap disordered).fault? =
      some (.notIncreasing [.number 5, .number 3, .text "x", .absent]) := by
    decide +kernel
  refine ⟨⟨c, hc, (hkept c hc).2, (hkept c hc).1⟩, ⟨hnames, hsame plain hnames⟩, ?_, ?_⟩
  · exact (huntyped _).mp ⟨_, ofSettings_eq_error_iff.mpr htype, by decide +kernel⟩
  · exact (hdisordered _).mp ⟨_, ofSettings_eq_error_iff.mpr horder, by decide +kernel⟩

end Config

end ApiDrift.Impact
