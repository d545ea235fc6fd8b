import ApiDrift.Proofs.TypeRelation.Members
import Mathlib.Order.Defs.PartialOrder

set_option autoImplicit false

/-!
# The order of types

Seen from the other type a relation is the converse one.  Where no members are given, a
type is no more than the set of alternatives in its text, and a missing type is less than any
set, be it the empty one of a text without alternatives.  The heuristic comparator answers
by the order of these extents, so types that keep getting wider end up wider than they began.
-/

namespace ApiDrift

/-! ## Relations that take nothing away -/

/-- What the old type allows the new type allows too. -/
def TypeRelation.TakesNothing (r : TypeRelation) : Prop := r = .same ∨ r = .widened

theorem TypeRelation.takesNothing_ofCoverage_iff {oldInNew newInOld : Bool} :
    (ofCoverage oldInNew newInOld).TakesNothing ↔ oldInNew = true := by
  cases oldInNew <;> cases newInOld <;> simp [ofCoverage, TakesNothing]

theorem TypeRelation.eq_converse_iff {r r' : TypeRelation} :
    r'.converse = r.converse ↔ r' = r := by
  cases r <;> cases r' <;> simp [converse]

/-! ## Extents -/

/-- No members of a union are given apart from its text. -/
def TypeExpr.IsTextual (t : TypeExpr) : Prop := ¬ (t.kind = some "union" ∧ t.members ≠ [])

instance (t : TypeExpr) : Decidable t.IsTextual :=
  decidable_of_iff (¬ (t.kind = some "union" ∧ t.members.isEmpty = false)) (by
    simp [TypeExpr.IsTextual])

theorem TypeExpr.IsTextual.memberSet_eq {t : TypeExpr} (h : t.IsTextual) :
    t.memberSet = {name | name ∈ TypeText.unionMembers t.normalized} := if_neg h

theorem TypeExpr.IsTextual.of_mem_some {t : TypeExpr} (h : t.IsTextual) :
    ∀ t' ∈ some t, t'.IsTextual := fun _ hmem => Option.some.inj hmem ▸ h

/-- What a type allows: nothing at all if it is missing, or else a set of members. -/
inductive Extent where
  | missing
  | members (names : Set String)

namespace Extent

/-- A missing type is below any other one, and sets of members are ordered by inclusion. -/
def Le : Extent → Extent → Prop
  | missing, _ => True
  | members _, missing => False
  | members names, members others => names ⊆ others

instance : PartialOrder Extent where
  le := Le
  le_refl e := by
    cases e with
    | missing => trivial
    | members names => exact Set.Subset.refl names
  le_trans e e' e'' h h' := by
    match e, e', e'', h, h' with
    | missing, _, _, _, _ => trivial
    | members _, members _, members _, h, h' => exact Set.Subset.trans h h'
  le_antisymm e e' h h' := by
    match e, e', h, h' with
    | missing, missing, _, _ => rfl
    | members _, members _, h, h' => exact congrArg members (Set.Subset.antisymm h h')

end Extent

/-- The extent of a type that may be missing. -/
def TypeExpr.extent : Option TypeExpr → Extent
  | none => .missing
  | some t => .members t.memberSet

namespace TypeComparator

variable {a b : Option TypeExpr} {old new : TypeExpr}

theorem relate_swap (a b : Option TypeExpr) :
    heuristic.relate b a = (heuristic.relate a b).converse := relateHeuristically_swap a b

theorem relate_self (a : Option TypeExpr) : heuristic.relate a a = .same :=
  relateHeuristically_self a

/-- Types of one text have the same members, so comparing texts first makes no difference. -/
theorem relate_of_isTextual (hold : old.IsTextual) (hnew : new.IsTextual) :
    heuristic.relate (some old) (some new) = relateSets old.alternatives new.alternatives := by
  by_cases htext : old.normalized = new.normalized
  · have hsame : old.memberSet = new.memberSet := by
      rw [hold.memberSet_eq, hnew.memberSet_eq, htext]
    rw [relate_of_normalized_eq htext]
    exact ((relateSets_eq_iff_holds old new .same).mpr hsame).symm
  · exact relate_of_normalized_ne htext

theorem relate_eq_same_iff (ha : ∀ t ∈ a, t.IsTextual) (hb : ∀ t ∈ b, t.IsTextual) :
    heuristic.relate a b = .same ↔ TypeExpr.extent a = TypeExpr.extent b := by
  cases a with
  | none => cases b <;> simp [relate_heuristic, relateHeuristically, TypeExpr.extent]
  | some old =>
    cases b with
    | none => simp [relate_heuristic, relateHeuristically, TypeExpr.extent]
    | some new =>
      rw [relate_of_isTextual (ha old rfl) (hb new rfl), TypeExpr.extent, TypeExpr.extent,
        Extent.members.injEq]
      exact relateSets_eq_iff_holds old new .same

theorem relate_takesNothing_iff (ha : ∀ t ∈ a, t.IsTextual) (hb : ∀ t ∈ b, t.IsTextual) :
    (heuristic.relate a b).TakesNothing ↔ TypeExpr.extent a ≤ TypeExpr.extent b := by
  cases a with
  | none =>
    refine iff_of_true ?_ trivial
    cases b with
    | none => exact .inl rfl
    | some new => exact .inr rfl
  | some old =>
    cases b with
    | none =>
      refine iff_of_false ?_ id
      rintro (hsame | hwidened)
      · cases hsame
      · cases hwidened
    | some new =>
      rw [relate_of_isTextual (ha old rfl) (hb new rfl), relateSets,
        TypeRelation.takesNothing_ofCoverage_iff]
      exact covers_alternatives_iff

/-- Two types in a row that take nothing away amount to one that takes nothing away, and to
no change only if neither is one. -/
theorem relate_trans {c : Option TypeExpr} (ha : ∀ t ∈ a, t.IsTextual)
    (hb : ∀ t ∈ b, t.IsTextual) (hc : ∀ t ∈ c, t.IsTextual)
    (hab : (heuristic.relate a b).TakesNothing) (hbc : (heuristic.relate b c).TakesNothing) :
    (heuristic.relate a c).TakesNothing ∧
      (heuristic.relate a c = .same →
        heuristic.relate a b = .same ∧ heuristic.relate b c = .same) := by
  rw [relate_takesNothing_iff ha hb] at hab
  rw [relate_takesNothing_iff hb hc] at hbc
  rw [relate_takesNothing_iff ha hc, relate_eq_same_iff ha hc, relate_eq_same_iff ha hb,
    relate_eq_same_iff hb hc]
  refine ⟨hab.trans hbc, fun hac => ?_⟩
  have hsame : TypeExpr.extent a = TypeExpr.extent b := hab.antisymm (hac ▸ hbc)
  exact ⟨hsame, hsame.symm.trans hac⟩

/-- The relation of types is mirrored when they change places, no type differs from itself,
and where no members are given, types that get wider in two steps are wider in the end. -/
theorem relate_mirrored_preorder :
    (∀ (a b : Option TypeExpr) (r : TypeRelation),
      heuristic.relate b a = r.converse ↔ heuristic.relate a b = r) ∧
    (∀ a : Option TypeExpr, heuristic.relate a a = .same) ∧
    ∀ a b c : Option TypeExpr,
      (∀ t ∈ a, t.IsTextual) → (∀ t ∈ b, t.IsTextual) → (∀ t ∈ c, t.IsTextual) →
      (heuristic.relate a b).TakesNothing → (heuristic.relate b c).TakesNothing →
        (heuristic.relate a c).TakesNothing ∧
          (heuristic.relate a c = .same →
            heuristic.relate a b = .same ∧ heuristic.relate b c = .same) := by
  refine ⟨fun a b r => ?_, relate_self, fun a b c ha hb hc => relate_trans ha hb hc⟩
  rw [relate_swap a b]
  exact TypeRelation.eq_converse_iff

/-- A type appears that has no alternatives at all, and then it gets some. -/
theorem relate_mirrored_preorder_empty :
    let empty : TypeExpr := { raw := "|" }
    let wide : TypeExpr := { raw := "Optional[A]", kind := some "union" }
    (empty.IsTextual ∧ wide.IsTextual) ∧
      heuristic.relate none (some empty) = .widened ∧
      heuristic.relate (some empty) (some wide) = .widened ∧
      (heuristic.relate none (some wide)).TakesNothing ∧
      heuristic.relate none (some wide) ≠ .same ∧
      heuristic.relate (some wide) (some empty) = .narrowed := by
  intro empty wide
  have hempty : empty.IsTextual := by decide
  have hwide : wide.IsTextual := by decide
  have hempty' : ∀ t ∈ some empty, t.IsTextual := fun t h => Option.some.inj h ▸ hempty
  have hwide' : ∀ t ∈ some wide, t.IsTextual := fun t h => Option.some.inj h ▸ hwide
  have hfirst : heuristic.relate none (some empty) = .widened := rfl
  have hsecond : heuristic.relate (some empty) (some wide) = .widened := by decide +kernel
  obtain ⟨hmirror, _, htrans⟩ := relate_mirrored_preorder
  obtain ⟨hwider, hsame⟩ := htrans none (some empty) (some wide) (fun t h => nomatch h) hempty'
    hwide' (.inr hfirst) (.inr hsecond)
  refine ⟨⟨hempty, hwide⟩, hfirst, hsecond, hwider, fun h => ?_, (hmirror _ _ .widened).mpr hsecond⟩
  rw [(hsame h).1] at hfirst
  cases hfirst

end TypeComparator

end ApiDrift
