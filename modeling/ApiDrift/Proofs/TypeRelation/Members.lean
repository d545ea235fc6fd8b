import ApiDrift.TypeRelation.Comparator
import Mathlib.Data.Set.Basic

set_option autoImplicit false

/-!
# When the members of two types decide their relation

An extractor may know the members of a union that its text only names.  The heuristic
comparator looks at members where the texts of two types differ and takes types of one text
to be the same.  So its answer is the relation of the two sets of members unless an alias
keeps its text while its members change, and then it reports no change.
-/

namespace ApiDrift

/-! ## Relations of sets -/

/-- What a relation says of an old and a new set of members: they are equal, one is a strict
subset of the other, or neither is a subset. -/
def TypeRelation.Holds (old new : Set String) : TypeRelation → Prop
  | same => old = new
  | widened => old ⊆ new ∧ ¬ new ⊆ old
  | narrowed => new ⊆ old ∧ ¬ old ⊆ new
  | unrelated => ¬ old ⊆ new ∧ ¬ new ⊆ old

/-- Two sets stand in the one relation that follows from which of them covers the other. -/
theorem TypeRelation.ofCoverage_eq_iff_holds {old new : Set String} {oldInNew newInOld : Bool}
    (hold : oldInNew = true ↔ old ⊆ new) (hnew : newInOld = true ↔ new ⊆ old)
    (r : TypeRelation) : ofCoverage oldInNew newInOld = r ↔ r.Holds old new := by
  cases r <;> cases oldInNew <;> cases newInOld <;>
    simp_all [ofCoverage, Holds, Set.Subset.antisymm_iff]

/-! ## Members of a type -/

/-- The members of a type: those that its given members stand for if it is a union with given
members, and those that its text stands for otherwise. -/
def TypeExpr.memberSet (t : TypeExpr) : Set String :=
  if t.kind = some "union" ∧ t.members ≠ [] then
    {name | ∃ member ∈ t.members, name ∈ TypeText.unionMembers member.normalized}
  else {name | name ∈ TypeText.unionMembers t.normalized}

theorem TypeExpr.mem_alternatives_iff {t : TypeExpr} {name : String} :
    name ∈ t.alternatives ↔ name ∈ t.memberSet := by
  unfold alternatives memberSet knownMembers
  by_cases hunion : t.kind = some "union"
  · cases hmembers : t.members with
    | nil => simp [hunion]
    | cons member rest => simp [hunion]
  · simp [hunion]

namespace TypeComparator

theorem covers_alternatives_iff {t t' : TypeExpr} :
    covers t.alternatives t'.alternatives = true ↔ t.memberSet ⊆ t'.memberSet := by
  rw [covers_iff, Set.subset_def]
  simp only [TypeExpr.mem_alternatives_iff]

/-- The relation of two lists of alternatives is that of the sets of members. -/
theorem relateSets_eq_iff_holds (old new : TypeExpr) (r : TypeRelation) :
    relateSets old.alternatives new.alternatives = r ↔ r.Holds old.memberSet new.memberSet :=
  TypeRelation.ofCoverage_eq_iff_holds covers_alternatives_iff covers_alternatives_iff r

theorem relate_heuristic : heuristic.relate = relateHeuristically := rfl

theorem relate_of_normalized_eq {old new : TypeExpr} (h : old.normalized = new.normalized) :
    heuristic.relate (some old) (some new) = .same := by
  rw [relate_heuristic, relateHeuristically, if_pos h]

theorem relate_of_normalized_ne {old new : TypeExpr} (h : old.normalized ≠ new.normalized) :
    heuristic.relate (some old) (some new) = relateSets old.alternatives new.alternatives := by
  rw [relate_heuristic, relateHeuristically, if_neg h]

/-- The members of two types decide how the comparator relates them exactly if types of one
text have the same members. -/
theorem relate_eq_iff_holds_iff (old new : TypeExpr) :
    (∀ r : TypeRelation, heuristic.relate (some old) (some new) = r ↔
        r.Holds old.memberSet new.memberSet) ↔
      (old.normalized = new.normalized → old.memberSet = new.memberSet) := by
  constructor
  · intro h hsame
    exact (h .same).mp (relate_of_normalized_eq hsame)
  · intro h r
    have hsets := relateSets_eq_iff_holds old new
    by_cases hsame : old.normalized = new.normalized
    · have hanswer : relateSets old.alternatives new.alternatives = .same :=
        (hsets .same).mpr (h hsame)
      rw [relate_of_normalized_eq hsame, ← hanswer]
      exact hsets r
    · rw [relate_of_normalized_ne hsame]
      exact hsets r

/-- An alias that keeps its text and loses a member counts as the same type. -/
theorem relate_not_always_by_members :
    ¬ ∀ (old new : TypeExpr) (r : TypeRelation), heuristic.relate (some old) (some new) = r ↔
      r.Holds old.memberSet new.memberSet := by
  intro h
  let old : TypeExpr :=
    { raw := "Result", kind := some "union", members := [{ raw := "Ok" }, { raw := "Err" }] }
  let new : TypeExpr := { raw := "Result", kind := some "union", members := [{ raw := "Ok" }] }
  have htext : old.normalized = new.normalized := rfl
  have hsame : old.memberSet = new.memberSet :=
    (h old new .same).mp (relate_of_normalized_eq htext)
  have hlost : "Err" ∈ old.alternatives := by decide +kernel
  have hkept : "Err" ∉ new.alternatives := by decide +kernel
  rw [TypeExpr.mem_alternatives_iff, hsame, ← TypeExpr.mem_alternatives_iff] at hlost
  exact hkept hlost

end TypeComparator

end ApiDrift
