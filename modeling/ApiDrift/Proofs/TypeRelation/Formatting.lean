import ApiDrift.Proofs.TypeRelation.Order
import ApiDrift.Proofs.TypeText.Spacing

set_option autoImplicit false

/-!
# Types that are only reformatted

The comparator trims the parts of a union and puts single spaces between words.  Blanks at
the bars are gone after that, but those beside a comma or a bracket inside of a part stay.  So
a type is the same in whatever way it is formatted only if there is no such place in it.
-/

namespace ApiDrift.TypeComparator

open ApiDrift.TypeText

variable {t t' : TypeExpr}

theorem mem_memberSet_iff (ht : t.IsTextual) (name : String) :
    name ∈ t.memberSet ↔ name.toList ∈ alternatives (Text.collapse t.text.toList) := by
  rw [ht.memberSet_eq, Set.mem_ofPred_eq, mem_unionMembers_iff, TypeExpr.normalized,
    String.toList_ofList]

theorem relate_eq_same_iff_mem_alternatives (ht : t.IsTextual) (ht' : t'.IsTextual) :
    heuristic.relate (some t) (some t') = .same ↔
      ∀ atom, atom ∈ alternatives (Text.collapse t'.text.toList) ↔
        atom ∈ alternatives (Text.collapse t.text.toList) := by
  rw [relate_eq_same_iff ht.of_mem_some ht'.of_mem_some, TypeExpr.extent, TypeExpr.extent,
    Extent.members.injEq, Set.ext_iff]
  constructor
  · intro h atom
    have hname := h (String.ofList atom)
    rw [mem_memberSet_iff ht, mem_memberSet_iff ht', String.toList_ofList] at hname
    exact hname.symm
  · intro h name
    rw [mem_memberSet_iff ht, mem_memberSet_iff ht', h]

/-- A type without given members is found the same however blanks are put beside its brackets,
commas and bars, exactly if no part of its text has such a mark beside anything else. -/
theorem relate_reformatted_eq_same_iff (ht : t.IsTextual) :
    (∀ t' : TypeExpr, t'.IsTextual → tight t'.text.toList = tight t.text.toList →
        heuristic.relate (some t) (some t') = .same) ↔
      ∀ part ∈ topLevelParts (some '|') t.text.toList, Rigid part := by
  rw [← mem_alternatives_reformatted_iff]
  constructor
  · intro h cs htight
    let t' : TypeExpr := { raw := String.ofList cs }
    have ht' : t'.IsTextual := by simp [TypeExpr.IsTextual, t']
    have htext : t'.text.toList = cs := String.toList_ofList
    have hsame := h t' ht' (by rw [htext, htight])
    rwa [relate_eq_same_iff_mem_alternatives ht ht', htext] at hsame
  · intro h t' ht' htight
    exact (relate_eq_same_iff_mem_alternatives ht ht').mpr (h t'.text.toList htight)

/-- Blanks at a bar make no difference, and neither does their number between two words. -/
theorem relate_reformatted_eq_same_bars :
    let t : TypeExpr := { raw := "unsigned int | None" }
    let t' : TypeExpr := { raw := " unsigned  int|None", kind := some "union" }
    (t.IsTextual ∧ t'.IsTextual ∧ tight t'.text.toList = tight t.text.toList) ∧
      heuristic.relate (some t) (some t') = .same := by
  intro t t'
  have ht : t.IsTextual := by decide
  have ht' : t'.IsTextual := by decide
  have htight : tight t'.text.toList = tight t.text.toList := by decide +kernel
  have hrigid : ∀ part ∈ topLevelParts (some '|') t.text.toList, Rigid part := by decide +kernel
  exact ⟨⟨ht, ht', htight⟩, (relate_reformatted_eq_same_iff ht).mpr hrigid t' ht' htight⟩

/-- A space behind a comma inside of brackets makes an unrelated type. -/
theorem relate_reformatted_not_always_same :
    ¬ ∀ a b : String, tight a.toList = tight b.toList →
      heuristic.relate (some { raw := a }) (some { raw := b }) = .same := by
  intro h
  have hsame := h "Dict[str, int]" "Dict[str,int]" (by decide +kernel)
  have hunrelated : heuristic.relate (some { raw := "Dict[str, int]" })
      (some { raw := "Dict[str,int]" }) = .unrelated := by decide +kernel
  rw [hunrelated] at hsame
  cases hsame

end ApiDrift.TypeComparator
