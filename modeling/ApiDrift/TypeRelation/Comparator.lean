import ApiDrift.Journal.Traced
import ApiDrift.Snapshot.TypeExpr
import ApiDrift.TypeRelation.Basic

set_option autoImplicit false

/-!
# Type comparators

A comparator decides how the new type of a slot relates to the old one.  Either
type may be missing.  The heuristic comparator reads types as unions and compares
their sets of alternatives; any other decision can be plugged in.
-/

namespace ApiDrift

/-- A decision on the relation of two types, and what it leaves in the trace. -/
structure TypeComparator where
  relate : Option TypeExpr → Option TypeExpr → TypeRelation
  trace : Option TypeExpr → Option TypeExpr → List Event

namespace TypeComparator

/-- Whether every name of the first list is in the second. -/
def covers (names others : List String) : Bool := names.all fun name => others.contains name

theorem covers_iff {names others : List String} :
    covers names others = true ↔ ∀ name ∈ names, name ∈ others := by
  simp [covers]

/-- The relation of two sets of alternatives. -/
def relateSets (before after : List String) : TypeRelation :=
  .ofCoverage (covers before after) (covers after before)

/-- The heuristic relation of two types.  A type that appears where there was
none is a widening, one that disappears a narrowing.  Types of one normalised
text are the same whatever their members are. -/
def relateHeuristically : Option TypeExpr → Option TypeExpr → TypeRelation
  | none, none => .same
  | none, some _ => .widened
  | some _, none => .narrowed
  | some old, some new =>
    if old.normalized = new.normalized then .same
    else relateSets old.alternatives new.alternatives

/-- A type is no different from itself. -/
theorem relateHeuristically_self (type : Option TypeExpr) :
    relateHeuristically type type = .same := by
  cases type with
  | none => rfl
  | some type => exact if_pos rfl

/-- Seen from the newer type the relation is the converse one. -/
theorem relateHeuristically_swap (old new : Option TypeExpr) :
    relateHeuristically new old = (relateHeuristically old new).converse := by
  cases old with
  | none => cases new <;> rfl
  | some old =>
    cases new with
    | none => rfl
    | some new =>
      by_cases hsame : old.normalized = new.normalized
      · simp [relateHeuristically, hsame, TypeRelation.converse]
      · simp [relateHeuristically, hsame, Ne.symm hsame, relateSets,
          TypeRelation.converse_ofCoverage]

/-- The heuristic comparator leaves a trace of the types it cannot relate. -/
def traceHeuristically (old new : Option TypeExpr) : List Event :=
  match old, new, relateHeuristically old new with
  | some old, some new, .unrelated => [.unrelatedTypes old.normalized new.normalized]
  | _, _, _ => []

/-- The comparator that reads types as unions. -/
def heuristic : TypeComparator := ⟨relateHeuristically, traceHeuristically⟩

/-- The heuristic comparison step by step: what is missing, the texts, and the sets of
alternatives.  Types that none of the steps relates are logged. -/
def runHeuristically : Option TypeExpr → Option TypeExpr → Traced TypeRelation
  | none, none => return .same
  | none, some _ => return .widened
  | some _, none => return .narrowed
  | some old, some new =>
    let before := old.alternatives
    let after := new.alternatives
    if old.normalized = new.normalized then return .same
    else if covers before after && covers after before then return .same
    else if covers before after then return .widened
    else if covers after before then return .narrowed
    else do
      Traced.log (.unrelatedTypes old.normalized new.normalized)
      return .unrelated

/-- The comparator that gives one answer for any two types. -/
def constant (answer : TypeRelation) : TypeComparator := ⟨fun _ _ => answer, fun _ _ => []⟩

/-- Relates two types and logs what the comparator leaves in the trace. -/
def run (comparator : TypeComparator) (old new : Option TypeExpr) : Traced TypeRelation :=
  ⟨comparator.relate old new, (comparator.trace old new).map Event.record⟩

/-- The relation and the trace of the heuristic comparator are those of its steps. -/
theorem run_heuristic (old new : Option TypeExpr) :
    heuristic.run old new = runHeuristically old new := by
  change (⟨relateHeuristically old new, (traceHeuristically old new).map Event.record⟩ :
    Traced TypeRelation) = _
  cases old with
  | none => cases new <;> rfl
  | some old =>
    cases new with
    | none => rfl
    | some new =>
      unfold runHeuristically traceHeuristically relateHeuristically relateSets
      by_cases hsame : old.normalized = new.normalized
      · simp only [hsame, if_true]
        rfl
      · simp only [hsame, if_false]
        cases covers old.alternatives new.alternatives <;>
          cases covers new.alternatives old.alternatives <;> rfl

end TypeComparator

end ApiDrift
