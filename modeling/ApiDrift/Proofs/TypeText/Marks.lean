import ApiDrift.Proofs.Text.Words
import ApiDrift.Proofs.TypeText.Joining

set_option autoImplicit false

/-!
# Blanks beside marks

The marks of a type text are its brackets, commas and bars.  Blanks beside them are a matter
of taste, so there are two extreme ways to write a text: tightly, with no blank beside a mark,
and with a space on both sides of every mark.  Texts that are the same in one way are the
same in the other one.  A cut at a mark leaves the spaced text in pieces that are the spaced
pieces.
-/

namespace ApiDrift.TypeText

open ApiDrift.Text

variable {c m : Char} {cs a b : List Char}

/-! ## Marks -/

/-- A bracket of any kind, a comma or a bar. -/
def isMark (c : Char) : Bool := isOpener c || isCloser c || c == ',' || c == '|'

theorem not_blank_of_isMark (h : isMark c = true) : isBlank c = false := by
  simp only [isMark, isOpener, isCloser, Bool.or_eq_true, beq_iff_eq] at h
  rcases h with (((((rfl | rfl) | rfl) | rfl) | (((rfl | rfl) | rfl) | rfl)) | rfl) | rfl <;> decide

theorem visible_mark (hm : isMark m = true) : visible [m] = [m] := by
  simp [visible, not_blank_of_isMark hm]

/-- Texts that differ in blanks have the same marks. -/
theorem mem_of_visible_eq (h : visible a = visible b) (hm : isMark m = true) (hmem : m ∈ a) :
    m ∈ b := by
  have hshown : m ∈ visible b := by
    rw [← h]
    exact mem_visible_iff.mpr ⟨hmem, not_blank_of_isMark hm⟩
  exact (mem_visible_iff.mp hshown).1

theorem not_mark_of_isBlank (h : isBlank c = true) : isMark c = false := by
  by_contra hmark
  rw [not_blank_of_isMark (by simpa using hmark)] at h
  cases h

/-! ## Spaced texts -/

/-- A character with blanks around it if it is a mark. -/
def loosely (c : Char) : List Char := if isMark c then [' ', c, ' '] else [c]

/-- A text with further blanks around every mark. -/
def loose (cs : List Char) : List Char := cs.flatMap loosely

/-- A text with one space on both sides of every mark and between all words. -/
def spaced (cs : List Char) : List Char := collapse (loose cs)

theorem loose_cons_mark (hc : isMark c = true) (cs : List Char) :
    loose (c :: cs) = ' ' :: c :: ' ' :: loose cs := by
  rw [loose, List.flatMap_cons, loosely, if_pos hc]
  rfl

theorem loose_cons_of_not_mark (hc : isMark c = false) (cs : List Char) :
    loose (c :: cs) = c :: loose cs := by simp [loose, loosely, hc]

theorem loose_of_no_mark (h : ∀ c ∈ cs, isMark c = false) : loose cs = cs := by
  induction cs with
  | nil => rfl
  | cons c cs ih =>
    obtain ⟨hc, hrest⟩ := List.forall_mem_cons.mp h
    rw [loose_cons_of_not_mark hc, ih hrest]

theorem visible_loose (cs : List Char) : visible (loose cs) = visible cs := by
  induction cs with
  | nil => rfl
  | cons c cs ih =>
    cases hc : isMark c with
    | true =>
      rw [loose_cons_mark hc]
      simpa [visible, isBlank_space, not_blank_of_isMark hc] using ih
    | false =>
      rw [loose_cons_of_not_mark hc, visible, List.filter_cons, visible, List.filter_cons]
      exact congrArg (fun rest => if !isBlank c then c :: rest else rest) ih

theorem visible_spaced (cs : List Char) : visible (spaced cs) = visible cs := by
  rw [spaced, visible_collapse, visible_loose]

theorem spaced_eq_nil_iff : spaced cs = [] ↔ AllBlank cs := by
  rw [spaced, collapse_eq_nil_iff, ← visible_eq_nil_iff, visible_loose, visible_eq_nil_iff]

/-! ## Tight texts -/

/-- There is no place for a blank in front of a text: the text is empty, or it begins with a mark
or with a blank. -/
def takesNoBlank (cs : List Char) : Bool := cs.head?.all fun c => isMark c || isBlank c

theorem takesNoBlank_cons (c : Char) (cs : List Char) :
    takesNoBlank (c :: cs) = (isMark c || isBlank c) := rfl

theorem takesNoBlank_iff :
    takesNoBlank cs = true ↔ ∀ c ∈ cs.head?, isMark c = true ∨ isBlank c = true := by
  cases cs <;> simp [takesNoBlank]

/-- A character in front of a tight text.  A mark takes off the blank behind it, and a blank
stays, as a space, only if there is a place for it. -/
def tightly (c : Char) (cs : List Char) : List Char :=
  if isMark c then c :: trimStart cs
  else if isBlank c then if takesNoBlank cs then cs else ' ' :: cs
  else c :: cs

/-- A text without the blanks at its ends and beside its marks, and with single spaces where
other blanks are. -/
def tight (cs : List Char) : List Char := trimStart (cs.foldr tightly [])

theorem tightly_of_isMark (hc : isMark c = true) (cs : List Char) :
    tightly c cs = c :: trimStart cs := if_pos hc

theorem tightly_of_isBlank (hc : isBlank c = true) (cs : List Char) :
    tightly c cs = if takesNoBlank cs then cs else ' ' :: cs := by
  rw [tightly, if_neg (by simp [not_mark_of_isBlank hc]), if_pos hc]

theorem tightly_of_neither (hmark : isMark c = false) (hblank : isBlank c = false)
    (cs : List Char) : tightly c cs = c :: cs := by simp [tightly, hmark, hblank]

/-! ## Tight and spaced texts have the same words -/

theorem words_loose_trimStart (cs : List Char) :
    words (loose (trimStart cs)) = words (loose cs) := by
  induction cs with
  | nil => rfl
  | cons c cs ih =>
    cases hc : isBlank c with
    | true =>
      rw [trimStart_cons_blank hc, ih, loose_cons_of_not_mark (not_mark_of_isBlank hc),
        words_cons_blank hc]
    | false => rw [trimStart_cons_of_not_blank hc]

theorem isBlank_head_loose (h : ∀ d ∈ cs.head?, isMark d = true ∨ isBlank d = true) :
    ∀ d ∈ (loose cs).head?, isBlank d = true := by
  cases cs with
  | nil => exact fun d hd => nomatch hd
  | cons c cs =>
    intro d hd
    cases hc : isMark c with
    | true =>
      rw [loose_cons_mark hc] at hd
      rw [← Option.some.inj hd]
      decide
    | false =>
      rw [loose_cons_of_not_mark hc] at hd
      rw [← Option.some.inj hd]
      exact (h c rfl).resolve_left (by simp [hc])

/-- The words behind any front are the same whether or not the next character is put tightly. -/
theorem words_append_loose_tightly (front : List Char) (c : Char) (cs : List Char) :
    words (front ++ loose (tightly c cs)) = words (front ++ loose (c :: cs)) := by
  cases hmark : isMark c with
  | true =>
    have hends (rest : List Char) :
        words (front ++ ' ' :: c :: ' ' :: rest) = words (front ++ [' ', c]) ++ words rest := by
      rw [← words_append_blank isBlank_space, List.append_assoc]
      rfl
    rw [tightly_of_isMark hmark, loose_cons_mark hmark, loose_cons_mark hmark, hends, hends,
      words_loose_trimStart]
  | false =>
    rw [loose_cons_of_not_mark hmark]
    cases hblank : isBlank c with
    | true =>
      rw [tightly_of_isBlank hblank, words_append_blank hblank]
      split
      · rename_i hhead
        exact words_append (isBlank_head_loose (takesNoBlank_iff.mp hhead)) front
      · rw [loose_cons_of_not_mark (not_mark_of_isBlank isBlank_space),
          words_append_blank isBlank_space]
    | false => rw [tightly_of_neither hmark hblank, loose_cons_of_not_mark hmark]

theorem words_append_loose_foldr (front cs : List Char) :
    words (front ++ loose (cs.foldr tightly [])) = words (front ++ loose cs) := by
  induction cs generalizing front with
  | nil => rfl
  | cons c cs ih =>
    have hrest : loose (c :: cs) = loosely c ++ loose cs := List.flatMap_cons
    have hfolded : loose (c :: cs.foldr tightly []) = loosely c ++ loose (cs.foldr tightly []) :=
      List.flatMap_cons
    rw [List.foldr_cons, words_append_loose_tightly, hfolded, hrest, ← List.append_assoc, ih,
      List.append_assoc]

theorem spaced_tight (cs : List Char) : spaced (tight cs) = spaced cs := by
  have hwords := words_append_loose_foldr [] cs
  rw [spaced, collapse, tight, words_loose_trimStart, spaced, collapse]
  exact congrArg _ hwords

/-! ## Tight texts forget blanks -/

theorem trimStart_tightly_of_isBlank (hc : isBlank c = true) (cs : List Char) :
    trimStart (tightly c cs) = trimStart cs := by
  rw [tightly_of_isBlank hc]
  split
  · rfl
  · exact trimStart_cons_blank isBlank_space cs

/-- A second blank makes no difference. -/
theorem tightly_tightly_of_isBlank (hc : isBlank c = true) (hm : isBlank m = true)
    (cs : List Char) : tightly c (tightly m cs) = tightly c cs := by
  rw [tightly_of_isBlank hm]
  split
  · rfl
  · rename_i hhead
    have hspaced : takesNoBlank (' ' :: cs) = true := by
      rw [takesNoBlank_cons, isBlank_space, Bool.or_true]
    rw [tightly_of_isBlank hc, if_pos hspaced, tightly_of_isBlank hc, if_neg hhead]

theorem tightly_foldr_trimStart (hc : isBlank c = true) (cs : List Char) :
    tightly c ((trimStart cs).foldr tightly []) = tightly c (cs.foldr tightly []) := by
  induction cs with
  | nil => rfl
  | cons d cs ih =>
    cases hd : isBlank d with
    | true => rw [trimStart_cons_blank hd, ih, List.foldr_cons, tightly_tightly_of_isBlank hc hd]
    | false => rw [trimStart_cons_of_not_blank hd]

theorem foldr_tightly_squeeze (cs : List Char) :
    (squeeze cs).foldr tightly [] = cs.foldr tightly [] := by
  induction cs with
  | nil => rfl
  | cons c cs ih =>
    cases hc : isBlank c with
    | true =>
      rw [squeeze_cons_blank hc, List.foldr_cons, tightly_foldr_trimStart isBlank_space, ih,
        List.foldr_cons, tightly_of_isBlank isBlank_space, tightly_of_isBlank hc]
    | false => rw [squeeze_cons_of_not_blank hc, List.foldr_cons, ih, List.foldr_cons]

theorem tight_trimStart (cs : List Char) : tight (trimStart cs) = tight cs := by
  induction cs with
  | nil => rfl
  | cons c cs ih =>
    cases hc : isBlank c with
    | true =>
      rw [trimStart_cons_blank hc, ih, tight, tight, List.foldr_cons,
        trimStart_tightly_of_isBlank hc]
    | false => rw [trimStart_cons_of_not_blank hc]

theorem foldr_tightly_of_allBlank (h : AllBlank cs) : cs.foldr tightly [] = [] := by
  induction cs with
  | nil => rfl
  | cons c cs ih =>
    obtain ⟨hc, hrest⟩ := List.forall_mem_cons.mp h
    rw [List.foldr_cons, ih hrest, tightly_of_isBlank hc]
    rfl

theorem tight_trim (cs : List Char) : tight (trim cs) = tight cs := by
  obtain ⟨back, hback, hcs⟩ := exists_eq_append_trimEnd (trimStart cs)
  rw [← tight_trimStart cs, hcs, tight, tight, List.foldr_append, foldr_tightly_of_allBlank hback]
  rfl

theorem tight_collapse (cs : List Char) : tight (collapse cs) = tight cs := by
  rw [← trim_squeeze, tight_trim, tight, foldr_tightly_squeeze, tight]

theorem foldr_tightly_loose (cs : List Char) :
    (loose cs).foldr tightly [] = cs.foldr tightly [] := by
  induction cs with
  | nil => rfl
  | cons c cs ih =>
    cases hc : isMark c with
    | true =>
      have hhead : takesNoBlank (c :: trimStart (cs.foldr tightly [])) = true := by
        rw [takesNoBlank_cons, hc, Bool.true_or]
      rw [loose_cons_mark hc, List.foldr_cons, List.foldr_cons, List.foldr_cons, ih,
        tightly_of_isMark hc, trimStart_tightly_of_isBlank isBlank_space,
        tightly_of_isBlank isBlank_space, if_pos hhead, List.foldr_cons, tightly_of_isMark hc]
    | false => rw [loose_cons_of_not_mark hc, List.foldr_cons, ih, List.foldr_cons]

theorem tight_spaced (cs : List Char) : tight (spaced cs) = tight cs := by
  rw [spaced, tight_collapse, tight, foldr_tightly_loose, tight]

/-- Texts are the same without blanks beside marks exactly if they are the same with spaces
there. -/
theorem tight_eq_tight_iff : tight a = tight b ↔ spaced a = spaced b := by
  constructor
  · intro h
    rw [← spaced_tight a, h, spaced_tight]
  · intro h
    rw [← tight_spaced a, h, tight_spaced]

/-! ## Neighbours -/

/-- Of a mark and a character next to it one is a blank. -/
def Apart (c d : Char) : Prop :=
  isMark c = true ∨ isMark d = true → isBlank c = true ∨ isBlank d = true

/-- Neither a mark nor a character next to it is a blank. -/
def Close (c d : Char) : Prop :=
  isMark c = true ∨ isMark d = true → isBlank c = false ∧ isBlank d = false

instance (c d : Char) : Decidable (Apart c d) :=
  inferInstanceAs (Decidable (isMark c = true ∨ isMark d = true → _))

instance (c d : Char) : Decidable (Close c d) :=
  inferInstanceAs (Decidable (isMark c = true ∨ isMark d = true → _))

theorem isChain_apart_loose (cs : List Char) : (loose cs).IsChain Apart := by
  induction cs with
  | nil => exact List.IsChain.nil
  | cons c cs ih =>
    cases hc : isMark c with
    | true =>
      rw [loose_cons_mark hc]
      refine .cons_cons (fun _ => .inl isBlank_space) (.cons_cons (fun _ => .inr isBlank_space) ?_)
      exact List.isChain_cons.mpr ⟨fun d _ _ => .inl isBlank_space, ih⟩
    | false =>
      rw [loose_cons_of_not_mark hc]
      refine List.isChain_cons.mpr ⟨fun d hd hmark => .inr ?_, ih⟩
      -- a mark has a blank in front of it
      cases cs with
      | nil => cases hd
      | cons d' cs =>
        refine isBlank_head_loose (fun e he => .inl ?_) d hd
        cases hd' : isMark d' with
        | true => exact Option.some.inj he ▸ hd'
        | false =>
          rw [loose_cons_of_not_mark hd'] at hd
          rw [← Option.some.inj hd, hc, hd'] at hmark
          rcases hmark with h | h <;> cases h

theorem isChain_apart_spaced (cs : List Char) : (spaced cs).IsChain Apart :=
  isChain_collapse (fun _ _ _ _ _ => .inl isBlank_space) (fun _ _ _ _ _ => .inr isBlank_space)
    (isChain_apart_loose cs)

theorem not_blank_of_mem_head_trimStart (cs : List Char) :
    ∀ d ∈ (trimStart cs).head?, isBlank d = false :=
  trimStart_eq_self_iff.mp (trimStart_trimStart cs)

theorem isChain_close_foldr (cs : List Char) : (cs.foldr tightly []).IsChain Close := by
  induction cs with
  | nil => exact List.IsChain.nil
  | cons c cs ih =>
    rw [List.foldr_cons]
    cases hmark : isMark c with
    | true =>
      rw [tightly_of_isMark hmark]
      refine List.isChain_cons.mpr ⟨fun d hd _ => ⟨not_blank_of_isMark hmark, ?_⟩, ?_⟩
      · exact not_blank_of_mem_head_trimStart _ d hd
      · exact ih.suffix (List.dropWhile_suffix isBlank)
    | false =>
      cases hblank : isBlank c with
      | true =>
        rw [tightly_of_isBlank hblank]
        split
        · exact ih
        · rename_i hhead
          refine List.isChain_cons.mpr ⟨fun d hd hmarks => ?_, ih⟩
          refine absurd (takesNoBlank_iff.mpr fun e he => ?_) hhead
          rw [← Option.mem_unique hd he]
          exact .inl (hmarks.resolve_left (by decide))
      | false =>
        rw [tightly_of_neither hmark hblank]
        refine List.isChain_cons.mpr ⟨fun d _ hmarks => ⟨hblank, ?_⟩, ih⟩
        exact not_blank_of_isMark (hmarks.resolve_left (by simp [hmark]))

theorem isChain_close_tight (cs : List Char) : (tight cs).IsChain Close :=
  (isChain_close_foldr cs).suffix (List.dropWhile_suffix isBlank)

theorem isChain_close_collapse_tight (cs : List Char) : (collapse (tight cs)).IsChain Close := by
  refine isChain_collapse (fun b d hb h hmark => ?_) (fun c b hb h hmark => ?_)
    (isChain_close_tight cs)
  · have hblank := (h (.inr (hmark.resolve_left (by decide)))).1
    rw [hb] at hblank
    cases hblank
  · have hblank := (h (.inl (hmark.resolve_right (by decide)))).2
    rw [hb] at hblank
    cases hblank

/-- A mark that is at once apart from its neighbours and close to them has none. -/
theorem eq_singleton_of_isChain (hapart : cs.IsChain Apart) (hclose : cs.IsChain Close)
    (hm : m ∈ cs) (hmark : isMark m = true) : cs = [m] := by
  have hnone : ∀ c d, [c, d] <:+: cs → ¬ (isMark c = true ∨ isMark d = true) := by
    intro c d hwithin hmarks
    have hclose' : [c, d].IsChain Close := hclose.infix hwithin
    have hapart' : [c, d].IsChain Apart := hapart.infix hwithin
    obtain ⟨hc, hd⟩ := List.isChain_pair.mp hclose' hmarks
    rcases List.isChain_pair.mp hapart' hmarks with hblank | hblank
    · rw [hc] at hblank
      cases hblank
    · rw [hd] at hblank
      cases hblank
  obtain ⟨front, back, rfl⟩ := List.append_of_mem hm
  have hfront : front = [] := by
    rcases List.eq_nil_or_concat' front with hnil | ⟨front, c, rfl⟩
    · exact hnil
    · exact absurd (.inr hmark) (hnone c m ⟨front, back, by simp⟩)
  cases back with
  | nil => rw [hfront]; rfl
  | cons d back => exact absurd (.inl hmark) (hnone m d ⟨front, back, by simp⟩)

end ApiDrift.TypeText
