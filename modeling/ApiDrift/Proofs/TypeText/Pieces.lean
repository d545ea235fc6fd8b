import ApiDrift.Proofs.Text.Blanks
import ApiDrift.TypeText.Brackets

set_option autoImplicit false

/-!
# Pieces are whole

A text is cut at the separators at depth zero, and a piece starts where a cut has left the
depth at zero.  So every character of a piece has the depth in the piece that it has in the
text, and there is nothing left to cut.  Blanks are no brackets, which makes that as true of
a trimmed piece.
-/

namespace ApiDrift.TypeText

open ApiDrift.Text

variable {separator c : Char} {depth : Nat} {cs : List Char}

/-! ## Depth behind a text -/

/-- The depth behind a text that is read from the given depth. -/
def depthBehind (depth : Nat) (cs : List Char) : Nat := cs.foldl depthAfter depth

/-- A bracket of any kind, opening or closing. -/
def isBracket (c : Char) : Bool := isOpener c || isCloser c

theorem depthAfter_of_not_bracket (h : isBracket c = false) (depth : Nat) :
    depthAfter depth c = depth := by
  obtain ⟨hopener, hcloser⟩ := Bool.or_eq_false_iff.mp h
  simp [depthAfter, hopener, hcloser]

theorem not_bracket_of_isBlank (h : isBlank c = true) : isBracket c = false := by
  rw [← Bool.not_eq_true]
  simp only [isBracket, isOpener, isCloser, Bool.or_eq_true, beq_iff_eq]
  rintro ((((rfl | rfl) | rfl) | rfl) | (((rfl | rfl) | rfl) | rfl)) <;> revert h <;> decide

theorem depthAfter_of_isBlank (h : isBlank c = true) (depth : Nat) :
    depthAfter depth c = depth :=
  depthAfter_of_not_bracket (not_bracket_of_isBlank h) depth

/-! ## Whole texts -/

/-- A text that is read from the given depth has no separator at depth zero. -/
def Whole (separator : Char) (depth : Nat) (cs : List Char) : Prop :=
  ∀ front back, cs = front ++ separator :: back → depthBehind depth (front ++ [separator]) ≠ 0

theorem whole_nil (separator : Char) (depth : Nat) : Whole separator depth [] :=
  fun front back h => by simp at h

theorem whole_cons_iff :
    Whole separator depth (c :: cs) ↔
      ¬ (separator = c ∧ depthAfter depth c = 0) ∧ Whole separator (depthAfter depth c) cs := by
  constructor
  · intro h
    refine ⟨fun hcut => h [] cs (by rw [hcut.1]; rfl) (hcut.1 ▸ hcut.2), fun front back hcs => ?_⟩
    exact h (c :: front) back (congrArg (c :: ·) hcs)
  · rintro ⟨hhead, hrest⟩ front back hcs
    cases front with
    | nil =>
      obtain ⟨rfl, _⟩ := List.cons.inj hcs
      exact fun hzero => hhead ⟨rfl, hzero⟩
    | cons first front =>
      obtain ⟨rfl, hrear⟩ := List.cons.inj hcs
      exact hrest front back hrear

/-- A text that is whole is its only piece. -/
theorem pieces_eq_singleton_iff :
    pieces (some separator) depth cs = [cs] ↔ Whole separator depth cs := by
  induction cs generalizing depth with
  | nil => exact iff_of_true rfl (whole_nil separator depth)
  | cons c cs ih =>
    rw [whole_cons_iff, ← ih, pieces]
    by_cases hcut : separator = c ∧ depthAfter depth c = 0
    · simp [hcut]
    · have hcut' : ¬ (some separator = some c ∧ depthAfter depth c = 0) := by simpa using hcut
      rw [if_neg hcut']
      cases pieces (some separator) (depthAfter depth c) cs <;> simp [hcut]

instance (separator : Char) (depth : Nat) (cs : List Char) :
    Decidable (Whole separator depth cs) :=
  decidable_of_iff (pieces (some separator) depth cs = [cs]) pieces_eq_singleton_iff

theorem whole_append_iff {tail : List Char} :
    Whole separator depth (cs ++ tail) ↔
      Whole separator depth cs ∧ Whole separator (depthBehind depth cs) tail := by
  induction cs generalizing depth with
  | nil => exact ⟨fun h => ⟨whole_nil separator depth, h⟩, fun h => h.2⟩
  | cons c cs ih =>
    rw [List.cons_append, whole_cons_iff, whole_cons_iff, ih, and_assoc]
    rfl

theorem Whole.of_dropWhile_isBlank (h : Whole separator depth cs) :
    Whole separator depth (cs.dropWhile isBlank) := by
  induction cs with
  | nil => exact h
  | cons c cs ih =>
    rw [List.dropWhile_cons]
    split
    · rename_i hblank
      have hrest := (whole_cons_iff.mp h).2
      rw [depthAfter_of_isBlank hblank] at hrest
      exact ih hrest
    · exact h

theorem Whole.trim (h : Whole separator depth cs) : Whole separator depth (trim cs) := by
  obtain ⟨blanks, hblanks⟩ := List.rdropWhile_prefix isBlank (trimStart cs)
  have hstart : Whole separator depth (trimStart cs) := h.of_dropWhile_isBlank
  rw [← hblanks] at hstart
  exact (whole_append_iff.mp hstart).1

/-! ## Pieces of a text -/

/-- The first piece of a text is read from where the text is, and any other one from depth
zero. -/
theorem whole_of_pieces_eq_cons {first : List Char} {rest : List (List Char)}
    (h : pieces (some separator) depth cs = first :: rest) :
    Whole separator depth first ∧ ∀ piece ∈ rest, Whole separator 0 piece := by
  induction cs generalizing depth first rest with
  | nil =>
    obtain ⟨rfl, rfl⟩ := List.cons.inj h
    exact ⟨whole_nil separator depth, fun piece hpiece => absurd hpiece List.not_mem_nil⟩
  | cons c cs ih =>
    rw [pieces] at h
    obtain ⟨first', rest', hpieces⟩ :=
      List.exists_cons_of_ne_nil (pieces_ne_nil (some separator) (depthAfter depth c) cs)
    obtain ⟨hfirst, hrest⟩ := ih hpieces
    rw [hpieces] at h
    split at h
    · rename_i hcut
      obtain ⟨rfl, rfl⟩ := List.cons.inj h
      rw [hcut.2] at hfirst
      exact ⟨whole_nil separator depth, List.forall_mem_cons.mpr ⟨hfirst, hrest⟩⟩
    · rename_i hcut
      rw [List.modifyHead_cons] at h
      obtain ⟨rfl, rfl⟩ := List.cons.inj h
      exact ⟨whole_cons_iff.mpr ⟨by simpa using hcut, hfirst⟩, hrest⟩

theorem whole_of_mem_pieces {piece : List Char} (h : piece ∈ pieces (some separator) 0 cs) :
    Whole separator 0 piece := by
  obtain ⟨first, rest, hpieces⟩ :=
    List.exists_cons_of_ne_nil (pieces_ne_nil (some separator) 0 cs)
  obtain ⟨hfirst, hrest⟩ := whole_of_pieces_eq_cons hpieces
  rw [hpieces] at h
  exact List.forall_mem_cons.mpr ⟨hfirst, hrest⟩ piece h

/-- A text begins with its first piece, and any other one is in it. -/
theorem infix_of_pieces_eq_cons {first : List Char} {rest : List (List Char)}
    (h : pieces (some separator) depth cs = first :: rest) :
    first <+: cs ∧ ∀ piece ∈ rest, piece <:+: cs := by
  induction cs generalizing depth first rest with
  | nil =>
    obtain ⟨rfl, rfl⟩ := List.cons.inj h
    exact ⟨List.prefix_rfl, fun piece hpiece => absurd hpiece List.not_mem_nil⟩
  | cons c cs ih =>
    rw [pieces] at h
    obtain ⟨first', rest', hpieces⟩ :=
      List.exists_cons_of_ne_nil (pieces_ne_nil (some separator) (depthAfter depth c) cs)
    obtain ⟨hfirst, hrest⟩ := ih hpieces
    have hlonger : ∀ piece ∈ rest', piece <:+: c :: cs := fun piece hpiece =>
      (hrest piece hpiece).trans (List.suffix_cons c cs).isInfix
    rw [hpieces] at h
    split at h
    · obtain ⟨rfl, rfl⟩ := List.cons.inj h
      have hwithin : first' <:+: c :: cs := hfirst.isInfix.trans (List.suffix_cons c cs).isInfix
      exact ⟨List.nil_prefix, List.forall_mem_cons.mpr ⟨hwithin, hlonger⟩⟩
    · rw [List.modifyHead_cons] at h
      obtain ⟨rfl, rfl⟩ := List.cons.inj h
      exact ⟨(List.prefix_cons_inj c).mpr hfirst, hlonger⟩

theorem infix_of_mem_pieces {piece : List Char} (h : piece ∈ pieces (some separator) depth cs) :
    piece <:+: cs := by
  obtain ⟨first, rest, hpieces⟩ :=
    List.exists_cons_of_ne_nil (pieces_ne_nil (some separator) depth cs)
  obtain ⟨hfirst, hrest⟩ := infix_of_pieces_eq_cons hpieces
  rw [hpieces] at h
  rcases List.mem_cons.mp h with rfl | hlater
  · exact hfirst.isInfix
  · exact hrest piece hlater

/-! ## Parts of a text -/

theorem infix_of_mem_topLevelParts {part : List Char}
    (h : part ∈ topLevelParts (some separator) cs) : part <:+: cs := by
  obtain ⟨piece, hpiece, rfl⟩ := List.mem_map.mp (List.mem_filter.mp h).1
  exact (trim_isInfix piece).trans (infix_of_mem_pieces hpiece)

/-- A text that is left as it is by cutting at a separator. -/
structure IsPart (separator : Char) (cs : List Char) : Prop where
  nonempty : cs ≠ []
  trimmed : trim cs = cs
  whole : Whole separator 0 cs

theorem isPart_of_mem_topLevelParts {part : List Char}
    (h : part ∈ topLevelParts (some separator) cs) : IsPart separator part := by
  obtain ⟨hmem, hnonempty⟩ := List.mem_filter.mp h
  obtain ⟨piece, hpiece, rfl⟩ := List.mem_map.mp hmem
  exact ⟨by simpa using hnonempty, trim_trim piece, (whole_of_mem_pieces hpiece).trim⟩

theorem IsPart.topLevelParts_eq (h : IsPart separator cs) :
    topLevelParts (some separator) cs = [cs] := by
  rw [topLevelParts, pieces_eq_singleton_iff.mpr h.whole, List.map_singleton, h.trimmed]
  simp [h.nonempty]

end ApiDrift.TypeText
