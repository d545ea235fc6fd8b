import ApiDrift.Impact.Config
import ApiDrift.Vocabulary

set_option autoImplicit false

/-!
# Impact levels

How much a change matters is graded by how many symbols call the changed one and
by how many exports are among them.  Either count can reach a level, and the
higher one stands.
-/

namespace ApiDrift.Impact

/-- The impact levels, lowest first. -/
inductive Level where
  | none
  | low
  | medium
  | high
  | critical
  deriving DecidableEq, Repr, Inhabited

namespace Level

/-- The word for a level. -/
def word : Level → String
  | none => "none"
  | low => "low"
  | medium => "medium"
  | high => "high"
  | critical => "critical"

/-- All levels, lowest first. -/
def all : List Level := [none, low, medium, high, critical]

/-- The levels and their words. -/
def vocabulary : Vocabulary Level := ⟨"ImpactLevel", all, word⟩

/-- The place of a level in the order. -/
def rank : Level → Nat
  | none => 0
  | low => 1
  | medium => 2
  | high => 3
  | critical => 4

/-- Levels are compared by their place in the order. -/
instance : LE Level := ⟨fun a b => a.rank ≤ b.rank⟩

instance (a b : Level) : Decidable (a ≤ b) := inferInstanceAs (Decidable (a.rank ≤ b.rank))

/-- The higher of two levels. -/
instance : Max Level := ⟨fun a b => if a ≤ b then b else a⟩

theorem le_iff_rank_le {a b : Level} : a ≤ b ↔ a.rank ≤ b.rank := Iff.rfl

theorem rank_max (a b : Level) : (max a b).rank = max a.rank b.rank := by
  cases a <;> cases b <;> rfl

theorem rank_injective {a b : Level} (h : a.rank = b.rank) : a = b := by
  cases a <;> cases b <;> simp_all [rank]

/-- Whether a level calls for attention. -/
def isHigh (l : Level) : Bool := high ≤ l

end Level

namespace Config

/-- The level that a blast radius reaches. -/
def levelOfRadius (c : Config) (radius : Int) : Level :=
  if c.critical ≤ radius then .critical
  else if c.high ≤ radius then .high
  else if c.medium ≤ radius then .medium
  else if c.low ≤ radius then .low
  else .none

/-- The level that a number of affected exports reaches. -/
def levelOfExports (c : Config) (exports : Int) : Level :=
  if c.criticalExport ≤ exports then .critical
  else if c.highExport ≤ exports then .high
  else .none

/-- The level of a change.  An entry point is mostly used from outside the call
graph, so it may be raised from the lowest level by one. -/
def level (c : Config) (radius exports : Int) (isEntryPoint : Bool) : Level :=
  let reached := max (c.levelOfRadius radius) (c.levelOfExports exports)
  if reached = .none ∧ isEntryPoint ∧ c.elevates then .low else reached

end Config

end ApiDrift.Impact
