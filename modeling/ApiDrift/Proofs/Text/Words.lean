import ApiDrift.Proofs.Text.Blanks
import Mathlib.Data.List.Chain

set_option autoImplicit false

/-!
# Words and single spaces

A blank ends a word, and that is all there is to say about the words of a text.  To put
single spaces between the words is the same as to bring every run of blanks down to one
space, wherever in the text it is, and to trim what comes out.  The second way works from
place to place, so it goes through any text that is cut into pieces.
-/

namespace ApiDrift.Text

variable {c : Char} {cs a b blanks word : List Char}

/-! ## Words -/

theorem words_nil : words [] = [] := by simp [words]

/-- A blank ends the words before it. -/
theorem words_append_blank (hc : isBlank c = true) (a b : List Char) :
    words (a ++ c :: b) = words a ++ words b := by
  rw [words, List.splitOnP_append_cons a b hc, List.filter_append]
  rfl

theorem words_cons_blank (hc : isBlank c = true) (cs : List Char) : words (c :: cs) = words cs := by
  have hends := words_append_blank hc [] cs
  rwa [words_nil, List.nil_append, List.nil_append] at hends

/-- A text that begins with a blank adds its words to those in front of it. -/
theorem words_append (h : ∀ c ∈ b.head?, isBlank c = true) (a : List Char) :
    words (a ++ b) = words a ++ words b := by
  cases b with
  | nil => rw [List.append_nil, words_nil, List.append_nil]
  | cons c b =>
    have hc := h c rfl
    rw [words_append_blank hc, words_cons_blank hc]

theorem words_append_left (h : AllBlank blanks) (cs : List Char) :
    words (blanks ++ cs) = words cs := by
  induction blanks with
  | nil => rfl
  | cons c blanks ih =>
    obtain ⟨hc, hrest⟩ := List.forall_mem_cons.mp h
    rw [List.cons_append, words_cons_blank hc, ih hrest]

theorem words_eq_nil_of_allBlank (h : AllBlank cs) : words cs = [] := by
  have hnone := words_append_left h []
  rwa [List.append_nil, words_nil] at hnone

theorem words_append_right (h : AllBlank blanks) (cs : List Char) :
    words (cs ++ blanks) = words cs := by
  cases blanks with
  | nil => rw [List.append_nil]
  | cons c blanks =>
    obtain ⟨hc, hrest⟩ := List.forall_mem_cons.mp h
    rw [words_append_blank hc, words_eq_nil_of_allBlank hrest, List.append_nil]

/-- A text without blanks is one word. -/
theorem words_of_no_blank (hne : word ≠ []) (h : ∀ c ∈ word, isBlank c = false) :
    words word = [word] := by
  rw [words, List.splitOnP_eq_singleton h]
  simp [hne]

theorem words_cons_of_not_blank (hc : isBlank c = false) (cs : List Char) :
    words (c :: cs) ≠ [] := by
  obtain ⟨first, rest, hsplit⟩ := List.exists_cons_of_ne_nil (List.splitOnP_ne_nil isBlank cs)
  rw [words, List.splitOnP_cons_eq_if_modifyHead, hc, hsplit]
  simp

theorem words_eq_nil_iff : words cs = [] ↔ AllBlank cs := by
  refine ⟨fun h => ?_, words_eq_nil_of_allBlank⟩
  induction cs with
  | nil => exact fun c hc => absurd hc List.not_mem_nil
  | cons c cs ih =>
    cases hc : isBlank c with
    | false => exact absurd h (words_cons_of_not_blank hc cs)
    | true =>
      rw [words_cons_blank hc] at h
      exact List.forall_mem_cons.mpr ⟨hc, ih h⟩

/-! ## Single spaces between words -/

theorem collapse_append_left (h : AllBlank blanks) (cs : List Char) :
    collapse (blanks ++ cs) = collapse cs := by rw [collapse, words_append_left h, collapse]

theorem collapse_cons_blank (hc : isBlank c = true) (cs : List Char) :
    collapse (c :: cs) = collapse cs := collapse_append_left (allBlank_singleton hc) cs

theorem collapse_append_right (h : AllBlank blanks) (cs : List Char) :
    collapse (cs ++ blanks) = collapse cs := by rw [collapse, words_append_right h, collapse]

theorem collapse_trim (cs : List Char) : collapse (trim cs) = collapse cs := by
  obtain ⟨front, back, hfront, hback, hcs⟩ := exists_eq_append_trim cs
  conv_rhs => rw [hcs, collapse_append_right hback, collapse_append_left hfront]

theorem collapse_of_no_blank (h : ∀ c ∈ word, isBlank c = false) : collapse word = word := by
  cases word with
  | nil => simp [collapse, words_nil]
  | cons c word =>
    rw [collapse, words_of_no_blank (List.cons_ne_nil c word) h, List.intercalate_singleton]

/-- A word goes in front of the other words with a space. -/
theorem collapse_word_append (hword : word ≠ []) (hplain : ∀ c ∈ word, isBlank c = false)
    (hc : isBlank c = true) (hcs : ¬ AllBlank cs) :
    collapse (word ++ c :: cs) = word ++ ' ' :: collapse cs := by
  obtain ⟨first, rest, hwords⟩ :=
    List.exists_cons_of_ne_nil (fun hnil => hcs (words_eq_nil_iff.mp hnil))
  rw [collapse, words_append_blank hc, words_of_no_blank hword hplain, collapse, hwords,
    List.singleton_append, List.intercalate_cons_cons, List.append_assoc, List.singleton_append]

theorem not_blank_of_mem_splitOnP (h : word ∈ cs.splitOnP isBlank) :
    ∀ c ∈ word, isBlank c = false := by
  induction cs generalizing word with
  | nil =>
    rw [List.splitOnP_nil, List.mem_singleton] at h
    simp [h]
  | cons c cs ih =>
    obtain ⟨first, rest, hsplit⟩ := List.exists_cons_of_ne_nil (List.splitOnP_ne_nil isBlank cs)
    rw [hsplit] at ih
    rw [List.splitOnP_cons_eq_if_modifyHead, hsplit] at h
    cases hc : isBlank c with
    | true =>
      rw [if_pos hc] at h
      rcases List.mem_cons.mp h with rfl | h
      · simp
      · exact ih h
    | false =>
      rw [if_neg (by simp [hc]), List.modifyHead_cons] at h
      rcases List.mem_cons.mp h with rfl | h
      · exact List.forall_mem_cons.mpr ⟨hc, ih List.mem_cons_self⟩
      · exact ih (List.mem_cons_of_mem first h)

theorem mem_words (h : word ∈ words cs) : word ≠ [] ∧ ∀ c ∈ word, isBlank c = false := by
  obtain ⟨hmem, hne⟩ := List.mem_filter.mp h
  exact ⟨by simpa using hne, not_blank_of_mem_splitOnP hmem⟩

theorem words_intercalate {list : List (List Char)}
    (h : ∀ word ∈ list, word ≠ [] ∧ ∀ c ∈ word, isBlank c = false) :
    words ([' '].intercalate list) = list := by
  induction list with
  | nil => exact words_nil
  | cons word list ih =>
    obtain ⟨⟨hne, hplain⟩, hrest⟩ := List.forall_mem_cons.mp h
    cases list with
    | nil => rw [List.intercalate_singleton, words_of_no_blank hne hplain]
    | cons word' list =>
      rw [List.intercalate_cons_cons, List.append_assoc, List.singleton_append,
        words_append_blank isBlank_space, words_of_no_blank hne hplain, ih hrest,
        List.singleton_append]

theorem words_collapse (cs : List Char) : words (collapse cs) = words cs :=
  words_intercalate fun _ => mem_words

theorem collapse_collapse (cs : List Char) : collapse (collapse cs) = collapse cs := by
  rw [collapse, words_collapse, collapse]

theorem collapse_eq_nil_iff : collapse cs = [] ↔ AllBlank cs := by
  rw [← words_eq_nil_iff, ← words_collapse]
  refine ⟨fun h => by rw [h, words_nil], fun h => ?_⟩
  rw [words_collapse] at h
  rw [collapse, h, List.intercalate_nil]

/-! ## Visible characters -/

/-- The characters of a text that are no blanks. -/
def visible (cs : List Char) : List Char := cs.filter fun c => !isBlank c

theorem mem_visible_iff : c ∈ visible cs ↔ c ∈ cs ∧ isBlank c = false := by
  rw [visible, List.mem_filter, Bool.not_eq_true']

theorem visible_eq_nil_iff : visible cs = [] ↔ AllBlank cs := by
  rw [visible, List.filter_eq_nil_iff]
  exact forall₂_congr fun c _ => by simp

/-- The words of a text hold what is visible of it. -/
theorem flatten_words (cs : List Char) : (words cs).flatten = visible cs := by
  rw [words, List.flatten_filter_not_isEmpty]
  induction cs with
  | nil => rfl
  | cons c cs ih =>
    obtain ⟨first, rest, hsplit⟩ := List.exists_cons_of_ne_nil (List.splitOnP_ne_nil isBlank cs)
    rw [hsplit, List.flatten_cons] at ih
    rw [List.splitOnP_cons_eq_if_modifyHead, hsplit, visible, List.filter_cons]
    cases hc : isBlank c with
    | true => simpa [visible] using ih
    | false => simpa [visible] using ih

theorem visible_collapse (cs : List Char) : visible (collapse cs) = visible cs := by
  rw [← flatten_words, words_collapse, flatten_words]

theorem visible_trim (cs : List Char) : visible (trim cs) = visible cs := by
  rw [← visible_collapse, collapse_trim, visible_collapse]

/-- Of a text with one visible character trimming leaves that character. -/
theorem trim_eq_of_visible_eq_singleton (h : visible cs = [c]) : trim cs = [c] := by
  obtain ⟨front, back, rfl, hfront, hc, hback⟩ := List.filter_eq_cons_iff.mp h
  have hfront : AllBlank front := fun d hd => by simpa using hfront d hd
  have htrimmed : trim [c] = [c] := trim_eq_self_iff.mpr (by simpa using hc)
  rw [List.append_cons, trim_append_right (visible_eq_nil_iff.mp hback), trim_append_left hfront,
    htrimmed]

/-! ## Single spaces place by place -/

/-- A text in which every run of blanks is one space. -/
def squeeze : List Char → List Char
  | [] => []
  | c :: cs => if isBlank c then ' ' :: trimStart (squeeze cs) else c :: squeeze cs

theorem squeeze_cons_blank (hc : isBlank c = true) (cs : List Char) :
    squeeze (c :: cs) = ' ' :: trimStart (squeeze cs) := by rw [squeeze, if_pos hc]

theorem squeeze_cons_of_not_blank (hc : isBlank c = false) (cs : List Char) :
    squeeze (c :: cs) = c :: squeeze cs := by simp [squeeze, hc]

theorem trimEnd_of_no_blank (h : ∀ c ∈ word, isBlank c = false) : trimEnd word = word :=
  trimEnd_eq_self_iff.mpr fun c hc => h c (List.mem_of_getLast? hc)

/-- A word in front of a blank, where the text behind the blank is known to be squeezed well. -/
theorem trimEnd_word_append_squeeze (hword : word ≠ []) (hplain : ∀ c ∈ word, isBlank c = false)
    (hc : isBlank c = true) (hcs : trim (squeeze cs) = collapse cs) :
    trimEnd (word ++ squeeze (c :: cs)) = collapse (word ++ c :: cs) := by
  have hrest : AllBlank (trimStart (squeeze cs)) ↔ AllBlank cs := by
    rw [← trim_eq_nil_iff, trim_trimStart, hcs, collapse_eq_nil_iff]
  rw [squeeze_cons_blank hc]
  by_cases hblank : AllBlank cs
  · -- the word is the last one
    have htail : AllBlank (' ' :: trimStart (squeeze cs)) :=
      List.forall_mem_cons.mpr ⟨isBlank_space, hrest.mpr hblank⟩
    have htail' : AllBlank (c :: cs) := List.forall_mem_cons.mpr ⟨hc, hblank⟩
    rw [trimEnd_append_of_allBlank htail, trimEnd_of_no_blank hplain, collapse_append_right htail',
      collapse_of_no_blank hplain]
  · have hend : trimEnd (trimStart (squeeze cs)) = collapse cs := hcs
    rw [List.append_cons, trimEnd_append_of_not_allBlank (fun hall => hblank (hrest.mp hall)), hend,
      collapse_word_append hword hplain hc hblank, List.append_assoc, List.singleton_append]

/-- Squeezing and then trimming puts single spaces between the words of a text. -/
theorem trim_squeeze (cs : List Char) : trim (squeeze cs) = collapse cs := by
  -- with it goes the same for a text that begins inside of a word
  suffices h : (∀ word : List Char, word ≠ [] → (∀ c ∈ word, isBlank c = false) →
      trimEnd (word ++ squeeze cs) = collapse (word ++ cs)) ∧
        trim (squeeze cs) = collapse cs from h.2
  induction cs with
  | nil =>
    refine ⟨fun word _ hplain => ?_, rfl⟩
    rw [squeeze, List.append_nil, collapse_of_no_blank hplain, trimEnd_of_no_blank hplain]
  | cons c cs ih =>
    obtain ⟨ihword, ihtext⟩ := ih
    cases hc : isBlank c with
    | true =>
      refine ⟨fun word hword hplain => trimEnd_word_append_squeeze hword hplain hc ihtext, ?_⟩
      rw [squeeze_cons_blank hc, trim_cons_blank isBlank_space, trim_trimStart, ihtext,
        collapse_cons_blank hc]
    | false =>
      rw [squeeze_cons_of_not_blank hc]
      constructor
      · intro word hword hplain
        have hlonger : ∀ c' ∈ word ++ [c], isBlank c' = false :=
          List.forall_mem_append.mpr ⟨hplain, List.forall_mem_singleton.mpr hc⟩
        have hgrown := ihword (word ++ [c]) (by simp) hlonger
        rwa [List.append_assoc, List.append_assoc] at hgrown
      · rw [trim, trimStart_cons_of_not_blank hc]
        exact ihword [c] (by simp) (List.forall_mem_singleton.mpr hc)

/-! ## Neighbours -/

variable {R : Char → Char → Prop}

theorem rel_space_of_isChain (hleft : ∀ b d, isBlank b = true → R b d → R ' ' d)
    (hc : isBlank c = true) (h : (c :: cs).IsChain R) :
    ∀ d ∈ (trimStart (squeeze cs)).head?, R ' ' d := by
  induction cs generalizing c with
  | nil => simp [squeeze, trimStart]
  | cons d cs ih =>
    obtain ⟨hrel, hrest⟩ := List.isChain_cons_cons.mp h
    cases hd : isBlank d with
    | true =>
      rw [squeeze_cons_blank hd, trimStart_cons_blank isBlank_space, trimStart_trimStart]
      exact ih hd hrest
    | false =>
      rw [squeeze_cons_of_not_blank hd, trimStart_cons_of_not_blank hd]
      intro d' hd'
      rw [← Option.some.inj hd']
      exact hleft c d hc hrel

/-- What holds of neighbours in a text, and does not depend on which blank it is that they are,
holds of neighbours in the text with single spaces. -/
theorem isChain_squeeze (hleft : ∀ b d, isBlank b = true → R b d → R ' ' d)
    (hright : ∀ c b, isBlank b = true → R c b → R c ' ') (h : cs.IsChain R) :
    (squeeze cs).IsChain R := by
  induction cs with
  | nil => exact List.IsChain.nil
  | cons c cs ih =>
    obtain ⟨hhead, hrest⟩ := List.isChain_cons.mp h
    cases hc : isBlank c with
    | true =>
      rw [squeeze_cons_blank hc]
      have hsuffix : trimStart (squeeze cs) <:+ squeeze cs := List.dropWhile_suffix isBlank
      exact List.isChain_cons.mpr ⟨rel_space_of_isChain hleft hc h, (ih hrest).suffix hsuffix⟩
    | false =>
      rw [squeeze_cons_of_not_blank hc]
      refine List.isChain_cons.mpr ⟨?_, ih hrest⟩
      cases cs with
      | nil => simp [squeeze]
      | cons d cs =>
        have hrel := hhead d rfl
        cases hd : isBlank d with
        | true =>
          rw [squeeze_cons_blank hd]
          intro d' hd'
          rw [← Option.some.inj hd']
          exact hright c d hd hrel
        | false =>
          rw [squeeze_cons_of_not_blank hd]
          intro d' hd'
          rw [← Option.some.inj hd']
          exact hrel

theorem isChain_collapse (hleft : ∀ b d, isBlank b = true → R b d → R ' ' d)
    (hright : ∀ c b, isBlank b = true → R c b → R c ' ') (h : cs.IsChain R) :
    (collapse cs).IsChain R := by
  rw [← trim_squeeze]
  exact List.IsChain.infix (isChain_squeeze hleft hright h) (trim_isInfix _)

end ApiDrift.Text
