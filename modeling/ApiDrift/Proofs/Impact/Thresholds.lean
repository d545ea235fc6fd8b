import ApiDrift.Impact.Level

set_option autoImplicit false

/-!
# What it takes to reach a level

A level is the highest of three: what the blast radius reaches, what the affected exports
reach, and what being an entry point does.  The checks on a configuration put its thresholds
in order, so each of the three reaches a level exactly if it passes one threshold of that
level, whatever the others do.
-/

namespace ApiDrift.Impact

/-! ## The order of levels -/

namespace Level

theorem le_refl (l : Level) : l ≤ l := Nat.le_refl _

theorem le_max_iff {l a b : Level} : l ≤ max a b ↔ l ≤ a ∨ l ≤ b := by
  rw [le_iff_rank_le, le_iff_rank_le, le_iff_rank_le, rank_max]
  omega

/-- There is no level above critical impact. -/
theorem eq_critical_iff {l : Level} : l = critical ↔ critical ≤ l := by
  cases l <;> decide

end Level

namespace Config

/-! ## Three ways to a level -/

/-- The level that being an entry point reaches. -/
def levelOfEntry (c : Config) (isEntryPoint : Bool) : Level :=
  if isEntryPoint ∧ c.elevates then .low else .none

/-- Raising an entry point from the lowest level by one is the same as letting it reach low
impact on its own. -/
theorem level_eq_max (c : Config) (radius exports : Int) (isEntryPoint : Bool) :
    c.level radius exports isEntryPoint =
      max (max (c.levelOfRadius radius) (c.levelOfExports exports))
        (c.levelOfEntry isEntryPoint) := by
  unfold level levelOfEntry
  generalize max (c.levelOfRadius radius) (c.levelOfExports exports) = reached
  by_cases hraised : isEntryPoint ∧ c.elevates
  · simp only [hraised, and_true]
    cases reached <;> rfl
  · simp only [hraised, and_false, if_false]
    cases reached <;> rfl

/-- The level in steps: that of the blast radius, then that of the affected exports where it is
higher, and at last low impact for an entry point that is below it. -/
def levelInSteps (c : Config) (radius exports : Int) (isEntryPoint : Bool) : Level :=
  let ofRadius := c.levelOfRadius radius
  let overridden :=
    if c.criticalExport ≤ exports then .critical
    else if c.highExport ≤ exports ∧ ofRadius.rank < Level.high.rank then .high
    else ofRadius
  if overridden = .none ∧ isEntryPoint ∧ c.elevates then .low else overridden

/-- To take the higher of two levels is to override the first one where the second is higher. -/
theorem level_eq_levelInSteps (c : Config) (radius exports : Int) (isEntryPoint : Bool) :
    c.level radius exports isEntryPoint = c.levelInSteps radius exports isEntryPoint := by
  unfold level levelInSteps levelOfExports
  generalize c.levelOfRadius radius = ofRadius
  by_cases hcritical : c.criticalExport ≤ exports
  · have hmax : max ofRadius .critical = Level.critical := by cases ofRadius <;> rfl
    simp only [hcritical, if_true, hmax]
  · by_cases hhigh : c.highExport ≤ exports
    · have hmax : max ofRadius .high =
          if ofRadius.rank < Level.high.rank then Level.high else ofRadius := by
        cases ofRadius <;> rfl
      simp only [hcritical, hhigh, if_true, if_false, true_and, hmax]
    · have hmax : max ofRadius .none = ofRadius := by cases ofRadius <;> rfl
      simp only [hcritical, hhigh, if_false, false_and, hmax]

/-- The blast radius passes the threshold of a level. -/
def RadiusReaches (c : Config) (radius : Int) : Level → Prop
  | .none => True
  | .low => c.low ≤ radius
  | .medium => c.medium ≤ radius
  | .high => c.high ≤ radius
  | .critical => c.critical ≤ radius

/-- The affected exports pass the threshold of a level.  They have none below high impact. -/
def ExportsReach (c : Config) (exports : Int) : Level → Prop
  | .none => True
  | .low | .medium | .high => c.highExport ≤ exports
  | .critical => c.criticalExport ≤ exports

/-- An entry point is at a level without any callers. -/
def EntryReaches (c : Config) (isEntryPoint : Bool) : Level → Prop
  | .none => True
  | .low => isEntryPoint = true ∧ c.elevates = true
  | .medium | .high | .critical => False

/-- A level is reached in one of the three ways. -/
def Reaches (c : Config) (radius exports : Int) (isEntryPoint : Bool) (l : Level) : Prop :=
  c.RadiusReaches radius l ∨ c.ExportsReach exports l ∨ c.EntryReaches isEntryPoint l

theorem le_levelOfRadius_iff {c : Config} {radius : Int} {l : Level} :
    l ≤ c.levelOfRadius radius ↔ c.RadiusReaches radius l := by
  have hlow := c.low_lt_medium
  have hmedium := c.medium_lt_high
  have hhigh := c.high_lt_critical
  rw [Level.le_iff_rank_le]
  unfold levelOfRadius
  repeat' split
  all_goals cases l <;> simp [Level.rank, RadiusReaches] <;> omega

theorem le_levelOfExports_iff {c : Config} {exports : Int} {l : Level} :
    l ≤ c.levelOfExports exports ↔ c.ExportsReach exports l := by
  have hhigh := c.highExport_lt_criticalExport
  rw [Level.le_iff_rank_le]
  unfold levelOfExports
  repeat' split
  all_goals cases l <;> simp [Level.rank, ExportsReach] <;> omega

theorem le_levelOfEntry_iff {c : Config} {isEntryPoint : Bool} {l : Level} :
    l ≤ c.levelOfEntry isEntryPoint ↔ c.EntryReaches isEntryPoint l := by
  rw [Level.le_iff_rank_le]
  unfold levelOfEntry
  split
  · rename_i hraised
    cases l <;> simp [Level.rank, EntryReaches, hraised]
  · rename_i hstays
    cases l <;> simp [Level.rank, EntryReaches]
    exact fun hentry => by simpa [hentry] using hstays

/-- A change is at a level or above it exactly if the level is reached in one of the three
ways. -/
theorem le_level_iff {c : Config} {radius exports : Int} {isEntryPoint : Bool} {l : Level} :
    l ≤ c.level radius exports isEntryPoint ↔ c.Reaches radius exports isEntryPoint l := by
  rw [level_eq_max, Level.le_max_iff, Level.le_max_iff, le_levelOfRadius_iff,
    le_levelOfExports_iff, le_levelOfEntry_iff, or_assoc, Reaches]

/-! ## More callers and exports -/

section More

variable {c : Config} {radius radius' exports exports' : Int} {isEntryPoint isEntryPoint' : Bool}

theorem RadiusReaches.mono {l : Level} (h : c.RadiusReaches radius l) (hradius : radius ≤ radius') :
    c.RadiusReaches radius' l := by
  cases l with
  | none => trivial
  | low | medium | high | critical => exact Int.le_trans h hradius

theorem ExportsReach.mono {l : Level} (h : c.ExportsReach exports l)
    (hexports : exports ≤ exports') : c.ExportsReach exports' l := by
  cases l with
  | none => trivial
  | low | medium | high | critical => exact Int.le_trans h hexports

theorem EntryReaches.mono {l : Level} (h : c.EntryReaches isEntryPoint l)
    (hentry : isEntryPoint = true → isEntryPoint' = true) : c.EntryReaches isEntryPoint' l := by
  cases l with
  | none => trivial
  | low => exact ⟨hentry h.1, h.2⟩
  | medium | high | critical => exact h

/-- A level that is reached stays reached with more callers, with more exports and as an
entry point. -/
theorem Reaches.mono {l : Level} (h : c.Reaches radius exports isEntryPoint l)
    (hradius : radius ≤ radius') (hexports : exports ≤ exports')
    (hentry : isEntryPoint = true → isEntryPoint' = true) :
    c.Reaches radius' exports' isEntryPoint' l := by
  rcases h with h | h | h
  · exact .inl (h.mono hradius)
  · exact .inr (.inl (h.mono hexports))
  · exact .inr (.inr (h.mono hentry))

theorem level_mono (hradius : radius ≤ radius') (hexports : exports ≤ exports')
    (hentry : isEntryPoint = true → isEntryPoint' = true) :
    c.level radius exports isEntryPoint ≤ c.level radius' exports' isEntryPoint' := by
  have hreached : c.Reaches radius exports isEntryPoint (c.level radius exports isEntryPoint) :=
    le_level_iff.mp (Level.le_refl _)
  exact le_level_iff.mpr (hreached.mono hradius hexports hentry)

end More

/-! ## Main statement -/

/-- Critical impact takes the critical blast radius or the critical number of affected exports.
Every lower level takes its own blast radius or the number of exports of high impact, and low
impact can also be that of an entry point, if these are raised.  So with more callers, with
more exports and as an entry point a change is not ranked lower. -/
theorem level_thresholds (c : Config) (radius exports : Int) (isEntryPoint : Bool) :
    let level := c.level radius exports isEntryPoint
    (level = .critical ↔ c.critical ≤ radius ∨ c.criticalExport ≤ exports) ∧
    (.high ≤ level ↔ c.high ≤ radius ∨ c.highExport ≤ exports) ∧
    (.medium ≤ level ↔ c.medium ≤ radius ∨ c.highExport ≤ exports) ∧
    (.low ≤ level ↔ c.low ≤ radius ∨ c.highExport ≤ exports ∨
      (isEntryPoint = true ∧ c.elevates = true)) ∧
    ∀ (radius' exports' : Int) (isEntryPoint' : Bool), radius ≤ radius' → exports ≤ exports' →
      (isEntryPoint = true → isEntryPoint' = true) →
        level.rank ≤ (c.level radius' exports' isEntryPoint').rank := by
  intro level
  have hreached (l : Level) : l ≤ level ↔
      c.RadiusReaches radius l ∨ c.ExportsReach exports l ∨ c.EntryReaches isEntryPoint l :=
    le_level_iff
  -- above low impact being an entry point is no way to a level
  have habove {p q : Prop} : p ∨ q ∨ False ↔ p ∨ q := or_congr_right (or_iff_left not_false)
  refine ⟨Level.eq_critical_iff.trans ((hreached .critical).trans habove),
    (hreached .high).trans habove, (hreached .medium).trans habove, hreached .low, ?_⟩
  intro radius' exports' isEntryPoint' hradius hexports hentry
  exact Level.le_iff_rank_le.mp (level_mono hradius hexports hentry)

/-- With wide thresholds the exports of high impact lift two callers over two levels at once,
a negative radius is below all of them, and an entry point of such a radius is of low impact
all the same, though not above one with two callers. -/
theorem level_thresholds_wide :
    let c : Config :=
      ⟨{ low := .number 2, medium := .number 20, high := .number 30, critical := .number 40,
         highExport := .number 3, criticalExport := .number 9 }, rfl⟩
    (Level.high ≤ c.level 2 3 false ∧ ¬ c.level 2 3 false = .critical) ∧
    (¬ Level.low ≤ c.level (-5) 2 false ∧ Level.low ≤ c.level (-5) 2 true) ∧
    (c.level (-5) 2 true).rank ≤ (c.level 2 2 true).rank := by
  intro c
  obtain ⟨hcritical, hhigh, -⟩ := level_thresholds c 2 3 false
  obtain ⟨-, -, -, hlow, -⟩ := level_thresholds c (-5) 2 false
  obtain ⟨-, -, -, hraised, hmore⟩ := level_thresholds c (-5) 2 true
  refine ⟨⟨hhigh.mpr ?_, mt hcritical.mp ?_⟩, ⟨mt hlow.mp ?_, hraised.mpr ?_⟩, ?_⟩
  · decide
  · decide
  · decide
  · decide
  · exact hmore 2 2 true (by decide) (by decide) id

end Config

end ApiDrift.Impact
