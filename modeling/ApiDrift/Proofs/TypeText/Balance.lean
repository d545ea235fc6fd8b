import ApiDrift.Proofs.TypeText.Joining
import Mathlib.Algebra.Group.Int.Defs
import Mathlib.Data.List.Infix

set_option autoImplicit false

/-!
# The balance of brackets

The balance of a text is the number of its opening brackets less that of its closing ones.
The depth follows the balance as long as no bracket is closed too often, and where one is,
the depth stays at zero and the balance falls behind.  So the depth behind a text is the
largest balance of the stretches that end there.
-/

namespace ApiDrift.TypeText

open ApiDrift.Text

variable {separator c : Char} {depth : Nat} {cs cs' : List Char}

/-! ## Balance -/

/-- What a character adds to the number of brackets that are open. -/
def bracketWeight (c : Char) : Int := if isOpener c then 1 else if isCloser c then -1 else 0

/-- The number of opening brackets less that of closing ones. -/
def balance : List Char → Int
  | [] => 0
  | c :: cs => bracketWeight c + balance cs

@[simp] theorem balance_nil : balance [] = 0 := rfl

@[simp] theorem balance_cons (c : Char) (cs : List Char) :
    balance (c :: cs) = bracketWeight c + balance cs := rfl

@[simp] theorem balance_append (cs cs' : List Char) :
    balance (cs ++ cs') = balance cs + balance cs' := by
  induction cs with
  | nil => rw [List.nil_append, balance_nil, zero_add]
  | cons c cs ih => rw [List.cons_append, balance_cons, ih, balance_cons, add_assoc]

theorem balance_eq_zero (h : ∀ c ∈ cs, bracketWeight c = 0) : balance cs = 0 := by
  induction cs with
  | nil => rfl
  | cons c cs ih =>
    obtain ⟨hc, hrest⟩ := List.forall_mem_cons.mp h
    rw [balance_cons, hc, ih hrest, zero_add]

theorem depthAfter_eq_max (depth : Nat) (c : Char) :
    (depthAfter depth c : Int) = max (depth + bracketWeight c) 0 := by
  unfold depthAfter bracketWeight
  split
  · omega
  · split <;> omega

/-- The depth does not fall behind the balance. -/
theorem le_depthBehind (depth : Nat) (cs : List Char) :
    depth + balance cs ≤ depthBehind depth cs := by
  induction cs generalizing depth with
  | nil => simp [depthBehind]
  | cons c cs ih =>
    have hstep := depthAfter_eq_max depth c
    calc depth + balance (c :: cs) = depth + bracketWeight c + balance cs := by
          rw [balance_cons, add_assoc]
      _ ≤ depthAfter depth c + balance cs := by omega
      _ ≤ depthBehind (depthAfter depth c) cs := ih _

/-- The depth behind a text is the balance of a stretch at the end of the text. -/
theorem exists_suffix_balance_eq (cs : List Char) :
    ∃ late, late <:+ cs ∧ balance late = depthBehind 0 cs := by
  -- from the end: a stretch grows by the last character, or is empty if that closes too often
  induction cs using List.reverseRecOn with
  | nil => exact ⟨[], List.suffix_rfl, rfl⟩
  | append_singleton cs c ih =>
    obtain ⟨late, hlate, hbalance⟩ := ih
    have hstep := depthAfter_eq_max (depthBehind 0 cs) c
    rw [depthBehind_append]
    by_cases hover : depthBehind 0 cs + bracketWeight c ≤ 0
    · refine ⟨[], List.nil_suffix, ?_⟩
      rw [Int.max_eq_right hover] at hstep
      exact hstep.symm
    · refine ⟨late ++ [c], List.suffix_concat_iff.mpr (.inr ⟨late, rfl, hlate⟩), ?_⟩
      rw [Int.max_eq_left (by omega)] at hstep
      rw [balance_append, balance_cons, balance_nil, add_zero, hbalance]
      exact hstep.symm

/-- A text ends outside of all brackets exactly if no stretch at its end opens more brackets
than it closes. -/
theorem depthBehind_ne_zero_iff :
    depthBehind 0 cs ≠ 0 ↔ ∃ late, late <:+ cs ∧ 0 < balance late := by
  constructor
  · intro hdepth
    obtain ⟨late, hlate, hbalance⟩ := exists_suffix_balance_eq cs
    exact ⟨late, hlate, by omega⟩
  · rintro ⟨late, ⟨early, rfl⟩, hbalance⟩
    have hle := le_depthBehind (depthBehind 0 early) late
    rw [depthBehind_append]
    omega

/-! ## Texts whose brackets match -/

/-- No bracket is closed before it is opened, and none is left open.  The kinds of the brackets
are not looked at. -/
structure WellBracketed (cs : List Char) : Prop where
  nonneg : ∀ front, front <+: cs → 0 ≤ balance front
  closed : balance cs = 0

instance (cs : List Char) : Decidable (WellBracketed cs) :=
  decidable_of_iff ((∀ front ∈ cs.inits, 0 ≤ balance front) ∧ balance cs = 0)
    ⟨fun h => ⟨fun front hfront => h.1 front ((List.mem_inits front cs).mpr hfront), h.2⟩,
      fun h => ⟨fun front hfront => h.nonneg front ((List.mem_inits front cs).mp hfront), h.closed⟩⟩

theorem wellBracketed_nil : WellBracketed [] := by decide

theorem WellBracketed.append (h : WellBracketed cs) (h' : WellBracketed cs') :
    WellBracketed (cs ++ cs') := by
  constructor
  · intro front hfront
    rcases List.prefix_or_prefix_of_prefix hfront (List.prefix_append cs cs') with hfirst | hsecond
    · exact h.nonneg front hfirst
    · obtain ⟨rest, rfl⟩ := hsecond
      rw [balance_append, h.closed, zero_add]
      exact h'.nonneg rest ((List.prefix_append_right_inj cs).mp hfront)
  · rw [balance_append, h.closed, h'.closed, add_zero]

theorem depthBehind_eq_of_nonneg (h : ∀ front, front <+: cs → 0 ≤ depth + balance front) :
    (depthBehind depth cs : Int) = depth + balance cs := by
  induction cs generalizing depth with
  | nil => simp [depthBehind]
  | cons c cs ih =>
    have hfirst := h [c] (List.prefix_cons_iff.mpr (.inr ⟨[], rfl, List.nil_prefix⟩))
    have hstep := depthAfter_eq_max depth c
    rw [balance_cons, balance_nil, add_zero] at hfirst
    rw [Int.max_eq_left hfirst] at hstep
    rw [balance_cons, ← add_assoc, ← hstep]
    refine ih fun front hfront => ?_
    have hlonger := h (c :: front) (List.prefix_cons_iff.mpr (.inr ⟨front, rfl, hfront⟩))
    rw [balance_cons, ← add_assoc, ← hstep] at hlonger
    exact hlonger

theorem WellBracketed.depthBehind_eq (h : WellBracketed cs) (depth : Nat) :
    depthBehind depth cs = depth := by
  have hopen : ∀ front, front <+: cs → 0 ≤ (depth : Int) + balance front := fun front hfront =>
    Int.add_nonneg (Int.natCast_nonneg depth) (h.nonneg front hfront)
  have hdepth := depthBehind_eq_of_nonneg hopen
  rw [h.closed, add_zero] at hdepth
  exact Int.ofNat_inj.mp hdepth

/-- Inside of a bracket a text whose brackets match is not cut. -/
theorem WellBracketed.whole (h : WellBracketed cs) (hseparator : bracketWeight separator = 0)
    (depth : Nat) : Whole separator (depth + 1) cs := by
  rintro front back rfl hzero
  have hnonneg := h.nonneg front (List.prefix_append _ _)
  have hle := le_depthBehind (depth + 1) (front ++ [separator])
  rw [hzero, balance_append, balance_cons, balance_nil, hseparator] at hle
  omega

end ApiDrift.TypeText
