import ApiDrift.Text.Blank
import Mathlib.Data.List.DropRight
import Mathlib.Data.List.TakeWhile

set_option autoImplicit false

/-!
# Blanks around a text

Trimming takes away the blanks at the two ends of a text and nothing else.  So blanks that
are put in front of a text or behind it make no difference to what is left, and a text is
trimmed exactly if it neither begins nor ends with a blank.
-/

namespace ApiDrift.Text

variable {cs blanks : List Char}

/-- A text is made of blanks only. -/
def AllBlank (cs : List Char) : Prop := ∀ c ∈ cs, isBlank c = true

theorem allBlank_singleton {c : Char} (h : isBlank c = true) : AllBlank [c] :=
  fun _ hmem => List.mem_singleton.mp hmem ▸ h

theorem isBlank_space : isBlank ' ' = true := by decide

/-! ## Trimmed texts -/

theorem trimStart_trim (cs : List Char) : trimStart (trim cs) = trim cs := by
  rw [trimStart, List.dropWhile_eq_self_iff]
  intro hlength
  -- the trimmed text begins as the text without its leading blanks does
  have hbegins : trim cs <+: trimStart cs := List.rdropWhile_prefix isBlank (trimStart cs)
  rw [hbegins.getElem hlength]
  exact List.dropWhile_get_zero_not isBlank cs (Nat.lt_of_lt_of_le hlength hbegins.length_le)

theorem trim_trim (cs : List Char) : trim (trim cs) = trim cs := by
  have hend : trimEnd (trim cs) = trim cs := List.rdropWhile_idempotent isBlank (trimStart cs)
  rw [trim, trimStart_trim, hend]

theorem trimStart_eq_self_iff :
    trimStart cs = cs ↔ ∀ c ∈ cs.head?, isBlank c = false := by
  cases cs with
  | nil => simp [trimStart]
  | cons c cs =>
    rw [trimStart, List.dropWhile_eq_self_iff]
    simp

theorem trimEnd_eq_self_iff : trimEnd cs = cs ↔ ∀ c ∈ cs.getLast?, isBlank c = false := by
  have hkept := List.rdropWhile_eq_self_iff (p := isBlank) (l := cs)
  rw [List.rdropWhile] at hkept
  rw [trimEnd, hkept]
  cases hlast : cs.getLast? with
  | none => simp [List.getLast?_eq_none_iff.mp hlast]
  | some c =>
    obtain ⟨front, rfl⟩ := List.getLast?_eq_some_iff.mp hlast
    simp

/-- A text is trimmed if it neither begins nor ends with a blank. -/
theorem trim_eq_self_iff :
    trim cs = cs ↔
      (∀ c ∈ cs.head?, isBlank c = false) ∧ ∀ c ∈ cs.getLast?, isBlank c = false := by
  rw [← trimStart_eq_self_iff, ← trimEnd_eq_self_iff]
  constructor
  · intro h
    have hstart : trimStart cs = cs := by
      rw [← h]
      exact trimStart_trim cs
    refine ⟨hstart, ?_⟩
    rw [trim, hstart] at h
    exact h
  · rintro ⟨hstart, hend⟩
    rw [trim, hstart, hend]

/-! ## Blanks at the ends -/

theorem trimStart_append_of_allBlank (h : AllBlank blanks) (cs : List Char) :
    trimStart (blanks ++ cs) = trimStart cs := List.dropWhile_append_of_pos h

theorem trimEnd_append_of_allBlank (h : AllBlank blanks) (cs : List Char) :
    trimEnd (cs ++ blanks) = trimEnd cs := by
  have hreverse : AllBlank blanks.reverse := fun c hc => h c (List.mem_reverse.mp hc)
  rw [trimEnd, List.reverse_append, List.dropWhile_append_of_pos hreverse]
  rfl

theorem trimStart_eq_nil_iff : trimStart cs = [] ↔ AllBlank cs := List.dropWhile_eq_nil_iff

theorem trimStart_append_of_not_allBlank (h : ¬ AllBlank cs) (tail : List Char) :
    trimStart (cs ++ tail) = trimStart cs ++ tail := by
  have hleft : (cs.dropWhile isBlank).isEmpty ≠ true := by
    rw [ne_eq, List.isEmpty_iff]
    exact fun hnil => h (trimStart_eq_nil_iff.mp hnil)
  rw [trimStart, List.dropWhile_append, if_neg hleft]
  rfl

theorem trimEnd_append_of_not_allBlank (h : ¬ AllBlank cs) (front : List Char) :
    trimEnd (front ++ cs) = front ++ trimEnd cs := by
  have hreverse : ¬ AllBlank cs.reverse := fun hall =>
    h fun c hc => hall c (List.mem_reverse.mpr hc)
  have hleft := trimStart_append_of_not_allBlank hreverse front.reverse
  rw [trimStart, trimStart] at hleft
  rw [trimEnd, List.reverse_append, hleft, List.reverse_append, List.reverse_reverse]
  rfl

theorem trimStart_cons_blank {c : Char} (hc : isBlank c = true) (cs : List Char) :
    trimStart (c :: cs) = trimStart cs := List.dropWhile_cons_of_pos hc

theorem trimStart_cons_of_not_blank {c : Char} (hc : isBlank c = false) (cs : List Char) :
    trimStart (c :: cs) = c :: cs := by simp [trimStart, hc]

theorem trim_append_left (h : AllBlank blanks) (cs : List Char) :
    trim (blanks ++ cs) = trim cs := by
  rw [trim, trimStart_append_of_allBlank h]
  rfl

theorem trim_cons_blank {c : Char} (hc : isBlank c = true) (cs : List Char) :
    trim (c :: cs) = trim cs := trim_append_left (allBlank_singleton hc) cs

theorem trim_append_right (h : AllBlank blanks) (cs : List Char) :
    trim (cs ++ blanks) = trim cs := by
  rw [trim, trim]
  by_cases hcs : AllBlank cs
  · rw [trimStart_append_of_allBlank hcs, trimStart_eq_nil_iff.mpr h, trimStart_eq_nil_iff.mpr hcs]
  · rw [trimStart_append_of_not_allBlank hcs, trimEnd_append_of_allBlank h]

theorem exists_eq_append_trimEnd (cs : List Char) :
    ∃ back, AllBlank back ∧ cs = trimEnd cs ++ back := by
  refine ⟨(cs.reverse.takeWhile isBlank).reverse, fun c hc => ?_, ?_⟩
  · exact List.mem_takeWhile_imp (List.mem_reverse.mp hc)
  · rw [trimEnd, ← List.reverse_append, List.takeWhile_append_dropWhile, List.reverse_reverse]

/-- A text is what trimming leaves, between blanks. -/
theorem exists_eq_append_trim (cs : List Char) :
    ∃ front back, AllBlank front ∧ AllBlank back ∧ cs = front ++ trim cs ++ back := by
  obtain ⟨back, hback, hsplit⟩ := exists_eq_append_trimEnd (trimStart cs)
  refine ⟨cs.takeWhile isBlank, back, fun c hc => List.mem_takeWhile_imp hc, hback, ?_⟩
  rw [List.append_assoc, trim, ← hsplit]
  exact List.takeWhile_append_dropWhile.symm

theorem trim_isInfix (cs : List Char) : trim cs <:+: cs := by
  obtain ⟨front, back, -, -, hcs⟩ := exists_eq_append_trim cs
  exact ⟨front, back, hcs.symm⟩

theorem trim_eq_nil_iff : trim cs = [] ↔ AllBlank cs := by
  constructor
  · intro hnil
    obtain ⟨front, back, hfront, hback, hcs⟩ := exists_eq_append_trim cs
    rw [hcs, hnil, List.append_nil]
    exact List.forall_mem_append.mpr ⟨hfront, hback⟩
  · intro hcs
    rw [trim, trimStart_eq_nil_iff.mpr hcs]
    rfl

theorem trimStart_trimStart (cs : List Char) : trimStart (trimStart cs) = trimStart cs :=
  List.dropWhile_idempotent isBlank cs

theorem trim_trimStart (cs : List Char) : trim (trimStart cs) = trim cs := by
  rw [trim, trim, trimStart_trimStart]

end ApiDrift.Text
