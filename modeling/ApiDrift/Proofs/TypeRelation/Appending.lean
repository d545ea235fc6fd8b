import ApiDrift.Proofs.TypeRelation.Order
import ApiDrift.Proofs.TypeText.Joining

set_option autoImplicit false

/-!
# Types that get another alternative

Where the brackets of a type leave the depth at zero, what is written behind a bar comes in
as further members, and none of the old ones is lost or changed by it.  So the new type is
wider than the old one if one of these members is new, and the same type if none is.
-/

namespace ApiDrift.TypeComparator

open ApiDrift.TypeText

variable {a b : String} {old new : TypeExpr}

theorem mem_memberSet_of_appended (ha : depthBehind 0 a.toList = 0) (hnew : new.IsTextual)
    (htext : new.normalized = a ++ " | " ++ b) (name : String) :
    name ∈ new.memberSet ↔ name ∈ unionMembers a ∨ name ∈ unionMembers b := by
  rw [hnew.memberSet_eq, htext, Set.mem_ofPred_eq, unionMembers_append_bar ha, List.mem_eraseDups,
    List.mem_append]

/-- Nothing is lost when an alternative is appended. -/
theorem extent_le_of_appended (ha : depthBehind 0 a.toList = 0) (hold : old.IsTextual)
    (hnew : new.IsTextual) (hbefore : old.normalized = a)
    (hafter : new.normalized = a ++ " | " ++ b) :
    TypeExpr.extent (some old) ≤ TypeExpr.extent (some new) := by
  intro name hname
  rw [hold.memberSet_eq, hbefore] at hname
  exact (mem_memberSet_of_appended ha hnew hafter name).mpr (.inl hname)

/-- The appended type is the old one exactly if it brings in no new member. -/
theorem relate_appended_eq_same_iff (ha : depthBehind 0 a.toList = 0) (hold : old.IsTextual)
    (hnew : new.IsTextual) (hbefore : old.normalized = a)
    (hafter : new.normalized = a ++ " | " ++ b) :
    heuristic.relate (some old) (some new) = .same ↔
      ∀ member ∈ unionMembers b, member ∈ unionMembers a := by
  have hle := extent_le_of_appended ha hold hnew hbefore hafter
  have hmem := mem_memberSet_of_appended ha hnew hafter
  rw [relate_eq_same_iff hold.of_mem_some hnew.of_mem_some]
  constructor
  · intro hsame member hmember
    have hkept : member ∈ new.memberSet := (hmem member).mpr (.inr hmember)
    rw [← Extent.members.inj hsame, hold.memberSet_eq, hbefore] at hkept
    exact hkept
  · intro hknown
    refine le_antisymm hle fun name hname => ?_
    rw [hold.memberSet_eq, hbefore]
    rcases (hmem name).mp hname with hfirst | hsecond
    · exact hfirst
    · exact hknown name hsecond

/-- The members of a union that is appended to are those of the first side and then the new
ones of the second side, and the comparator finds the union widened if there are new ones
and the same if there are none. -/
theorem relate_appended (a b : String) (ha : depthBehind 0 a.toList = 0) :
    unionMembers (a ++ " | " ++ b) = (unionMembers a ++ unionMembers b).eraseDups ∧
      ∀ old new : TypeExpr, old.IsTextual → new.IsTextual →
        old.normalized = a → new.normalized = a ++ " | " ++ b →
          ((∃ member ∈ unionMembers b, member ∉ unionMembers a) →
            heuristic.relate (some old) (some new) = .widened ∧
              heuristic.relate (some new) (some old) = .narrowed) ∧
          ((∀ member ∈ unionMembers b, member ∈ unionMembers a) →
            heuristic.relate (some old) (some new) = .same ∧
              heuristic.relate (some new) (some old) = .same) := by
  refine ⟨unionMembers_append_bar ha, fun old new hold hnew hbefore hafter => ?_⟩
  have hsame_iff := relate_appended_eq_same_iff ha hold hnew hbefore hafter
  have htakes : (heuristic.relate (some old) (some new)).TakesNothing :=
    (relate_takesNothing_iff hold.of_mem_some hnew.of_mem_some).mpr
      (extent_le_of_appended ha hold hnew hbefore hafter)
  constructor
  · rintro ⟨member, hmember, hfresh⟩
    have hwidened : heuristic.relate (some old) (some new) = .widened :=
      htakes.resolve_left fun hsame => hfresh (hsame_iff.mp hsame member hmember)
    refine ⟨hwidened, ?_⟩
    rw [relate_swap, hwidened]
    rfl
  · intro hknown
    have hsame := hsame_iff.mpr hknown
    refine ⟨hsame, ?_⟩
    rw [relate_swap, hsame]
    rfl

/-- A bracket that is closed too often leaves the depth at zero, and of the two members that
are appended one is known. -/
theorem relate_appended_optional :
    let a := "Map<K, V>) | None"
    let b := "Optional[int]"
    let old : TypeExpr := { raw := a }
    let new : TypeExpr := { raw := "Map<K, V>)  |  None | Optional[int]", kind := some "union" }
    (depthBehind 0 a.toList = 0 ∧ old.IsTextual ∧ new.IsTextual ∧ old.normalized = a ∧
        new.normalized = a ++ " | " ++ b ∧ "int" ∈ unionMembers b ∧ "int" ∉ unionMembers a) ∧
      unionMembers (a ++ " | " ++ b) = ["Map<K, V>)", "None", "int"] ∧
      heuristic.relate (some old) (some new) = .widened ∧
      heuristic.relate (some new) (some old) = .narrowed := by
  intro a b old new
  have ha : depthBehind 0 a.toList = 0 := by decide
  have hold : old.IsTextual := by decide
  have hnew : new.IsTextual := by decide
  have hbefore : old.normalized = a := by decide +kernel
  have hafter : new.normalized = a ++ " | " ++ b := by decide +kernel
  have hmember : "int" ∈ unionMembers b := by decide +kernel
  have hfresh : "int" ∉ unionMembers a := by decide +kernel
  obtain ⟨hmembers, hrelated⟩ := relate_appended a b ha
  obtain ⟨hwidens, _⟩ := hrelated old new hold hnew hbefore hafter
  refine ⟨⟨ha, hold, hnew, hbefore, hafter, hmember, hfresh⟩, ?_, hwidens ⟨"int", hmember, hfresh⟩⟩
  rw [hmembers]
  decide +kernel

end ApiDrift.TypeComparator
