import ApiDrift.Proofs.TypeText.Marks

set_option autoImplicit false

/-!
# Pieces of texts with other blanks

Blanks are neither brackets nor separators, so a text is cut at the same places whatever
blanks are in it.  The parts of a text with single spaces are its pieces with single
spaces, and the parts of its spaced text are its spaced pieces.
-/

namespace ApiDrift.TypeText

open ApiDrift.Text

variable {separator c : Char} {depth : Nat} {cs piece : List Char}

/-! ## Blanks in a piece -/

theorem pieces_cons_of_isBlank (hc : isBlank c = true) (hseparator : isBlank separator = false)
    (depth : Nat) (cs : List Char) :
    pieces (some separator) depth (c :: cs) =
      (pieces (some separator) depth cs).modifyHead (c :: ·) := by
  have hkept : ¬ (some separator = some c ∧ depthAfter depth c = 0) := by
    rintro ⟨hsame, -⟩
    rw [Option.some.inj hsame, hc] at hseparator
    cases hseparator
  rw [pieces, if_neg hkept, depthAfter_of_isBlank hc]

theorem pieces_trimStart (hseparator : isBlank separator = false) (depth : Nat)
    (cs : List Char) :
    pieces (some separator) depth (trimStart cs) =
      (pieces (some separator) depth cs).modifyHead trimStart := by
  induction cs with
  | nil => rfl
  | cons c cs ih =>
    cases hc : isBlank c with
    | true =>
      have hdropped : trimStart ∘ (c :: ·) = trimStart := funext (trimStart_cons_blank hc)
      rw [trimStart_cons_blank hc, ih, pieces_cons_of_isBlank hc hseparator,
        List.modifyHead_modifyHead, hdropped]
    | false =>
      rw [trimStart_cons_of_not_blank hc, pieces]
      split
      · rfl
      · have hkept : trimStart ∘ (c :: ·) = (c :: ·) := funext (trimStart_cons_of_not_blank hc)
        rw [List.modifyHead_modifyHead, hkept]

theorem map_squeeze_modifyHead_cons (hc : isBlank c = false) (list : List (List Char)) :
    (list.modifyHead (c :: ·)).map squeeze = (list.map squeeze).modifyHead (c :: ·) := by
  cases list with
  | nil => rfl
  | cons first rest => simp [squeeze_cons_of_not_blank hc]

/-- The pieces of a squeezed text are its squeezed pieces. -/
theorem pieces_squeeze (hseparator : isBlank separator = false) (depth : Nat) (cs : List Char) :
    pieces (some separator) depth (squeeze cs) =
      (pieces (some separator) depth cs).map squeeze := by
  induction cs generalizing depth with
  | nil => rfl
  | cons c cs ih =>
    cases hc : isBlank c with
    | true =>
      obtain ⟨first, rest, hpieces⟩ :=
        List.exists_cons_of_ne_nil (pieces_ne_nil (some separator) depth cs)
      rw [squeeze_cons_blank hc, pieces_cons_of_isBlank isBlank_space hseparator,
        pieces_trimStart hseparator, ih, pieces_cons_of_isBlank hc hseparator, hpieces]
      simp [squeeze_cons_blank hc]
    | false =>
      rw [squeeze_cons_of_not_blank hc, pieces, pieces, ih]
      split
      · rfl
      · exact (map_squeeze_modifyHead_cons hc _).symm

/-! ## Solid pieces -/

/-- The pieces of a text that are not all blank. -/
def solidPieces (separator : Char) (cs : List Char) : List (List Char) :=
  (pieces (some separator) 0 cs).filter fun piece => !(visible piece).isEmpty

/-- What is left of the pieces, without the empty ones, is what is left of the solid pieces. -/
theorem filter_map_pieces {f : List Char → List Char} (hf : ∀ piece, f piece = [] ↔ AllBlank piece)
    (separator : Char) (cs : List Char) :
    ((pieces (some separator) 0 cs).map f).filter (fun part => !part.isEmpty) =
      (solidPieces separator cs).map f := by
  have hsame : (fun part : List Char => !part.isEmpty) ∘ f =
      fun piece => !(visible piece).isEmpty := by
    funext piece
    have hempty : (f piece).isEmpty = (visible piece).isEmpty := by
      rw [Bool.eq_iff_iff, List.isEmpty_iff, List.isEmpty_iff, hf, visible_eq_nil_iff]
    exact congrArg (!·) hempty
  rw [List.filter_map, hsame, solidPieces]

theorem topLevelParts_eq_map_trim (separator : Char) (cs : List Char) :
    topLevelParts (some separator) cs = (solidPieces separator cs).map trim :=
  filter_map_pieces (fun _ => trim_eq_nil_iff) separator cs

/-- The parts of a text with single spaces are its pieces with single spaces. -/
theorem topLevelParts_collapse (hseparator : isBlank separator = false) (cs : List Char) :
    topLevelParts (some separator) (collapse cs) = (solidPieces separator cs).map collapse := by
  have hcollapse : trim ∘ squeeze = collapse := funext trim_squeeze
  rw [← trim_squeeze, topLevelParts_trim hseparator, topLevelParts, pieces_squeeze hseparator,
    List.map_map, hcollapse, filter_map_pieces fun _ => collapse_eq_nil_iff]

/-! ## Pieces of a spaced text -/

theorem pieces_loosely_of_cut (hcut : separator = c ∧ depthAfter depth c = 0)
    (hseparator : isMark separator = true) (cs : List Char) :
    pieces (some separator) depth (loosely c ++ cs) =
      [' '] :: (pieces (some separator) 0 cs).modifyHead (' ' :: ·) := by
  obtain ⟨rfl, hzero⟩ := hcut
  have hblank := not_blank_of_isMark hseparator
  rw [loosely, if_pos hseparator, List.cons_append, List.cons_append, List.singleton_append,
    pieces_cons_of_isBlank isBlank_space hblank, pieces, if_pos ⟨rfl, hzero⟩, hzero,
    pieces_cons_of_isBlank isBlank_space hblank]
  rfl

theorem pieces_loosely_of_not_cut (hcut : ¬ (separator = c ∧ depthAfter depth c = 0))
    (hseparator : isMark separator = true) (cs : List Char) :
    pieces (some separator) depth (loosely c ++ cs) =
      (pieces (some separator) (depthAfter depth c) cs).modifyHead (loosely c ++ ·) := by
  have hkept : ¬ (some separator = some c ∧ depthAfter depth c = 0) := by simpa using hcut
  unfold loosely
  split
  · have hblank := not_blank_of_isMark hseparator
    rw [List.cons_append, List.cons_append, List.singleton_append,
      pieces_cons_of_isBlank isBlank_space hblank, pieces, if_neg hkept,
      pieces_cons_of_isBlank isBlank_space hblank, List.modifyHead_modifyHead,
      List.modifyHead_modifyHead]
    rfl
  · rw [List.singleton_append, pieces, if_neg hkept]
    rfl

/-- The pieces of a text with blanks around its marks have the words of its pieces, also if
something is in front of the first one. -/
theorem words_of_pieces_loose_eq_cons (hseparator : isMark separator = true)
    {first first' : List Char} {rest rest' : List (List Char)}
    (h : pieces (some separator) depth cs = first :: rest)
    (h' : pieces (some separator) depth (loose cs) = first' :: rest') :
    (∀ front, words (front ++ first') = words (front ++ loose first)) ∧
      rest'.map words = rest.map (words ∘ loose) := by
  induction cs generalizing depth first first' rest rest' with
  | nil =>
    obtain ⟨rfl, rfl⟩ := List.cons.inj h
    obtain ⟨rfl, rfl⟩ := List.cons.inj h'
    exact ⟨fun front => rfl, rfl⟩
  | cons c cs ih =>
    obtain ⟨inner, later, hpieces⟩ :=
      List.exists_cons_of_ne_nil (pieces_ne_nil (some separator) (depthAfter depth c) cs)
    obtain ⟨inner', later', hpieces'⟩ :=
      List.exists_cons_of_ne_nil (pieces_ne_nil (some separator) (depthAfter depth c) (loose cs))
    obtain ⟨hinner, hlater⟩ := ih hpieces hpieces'
    rw [pieces, hpieces] at h
    rw [loose, List.flatMap_cons, ← loose] at h'
    by_cases hcut : separator = c ∧ depthAfter depth c = 0
    · rw [pieces_loosely_of_cut hcut hseparator, ← hcut.2, hpieces'] at h'
      rw [if_pos (by simpa using hcut)] at h
      obtain ⟨rfl, rfl⟩ := List.cons.inj h
      obtain ⟨rfl, rfl⟩ := List.cons.inj h'
      constructor
      · intro front
        rw [loose, List.flatMap_nil, List.append_nil,
          words_append_right (allBlank_singleton isBlank_space)]
      · have hfirst : words (' ' :: inner') = words (loose inner) := by
          rw [words_cons_blank isBlank_space]
          exact hinner []
        rw [List.modifyHead_cons, List.map_cons, List.map_cons, hfirst, hlater]
        rfl
    · rw [pieces_loosely_of_not_cut hcut hseparator, hpieces'] at h'
      rw [if_neg (by simpa using hcut)] at h
      obtain ⟨rfl, rfl⟩ := List.cons.inj h
      obtain ⟨rfl, rfl⟩ := List.cons.inj h'
      refine ⟨fun front => ?_, hlater⟩
      have hlonger := hinner (front ++ loosely c)
      rw [List.append_assoc, List.append_assoc] at hlonger
      rw [hlonger, loose, loose, List.flatMap_cons]

theorem map_words_pieces_loose (hseparator : isMark separator = true) (depth : Nat)
    (cs : List Char) :
    (pieces (some separator) depth (loose cs)).map words =
      (pieces (some separator) depth cs).map (words ∘ loose) := by
  obtain ⟨first, rest, h⟩ :=
    List.exists_cons_of_ne_nil (pieces_ne_nil (some separator) depth cs)
  obtain ⟨first', rest', h'⟩ :=
    List.exists_cons_of_ne_nil (pieces_ne_nil (some separator) depth (loose cs))
  obtain ⟨hfirst, hrest⟩ := words_of_pieces_loose_eq_cons hseparator h h'
  have hwords : words first' = words (loose first) := hfirst []
  rw [h, h', List.map_cons, List.map_cons, hwords, hrest]
  rfl

/-- The parts of a spaced text are its spaced pieces. -/
theorem topLevelParts_spaced (hseparator : isMark separator = true) (cs : List Char) :
    topLevelParts (some separator) (spaced cs) = (solidPieces separator cs).map spaced := by
  have hwords := congrArg (List.map ([' '].intercalate ·)) (map_words_pieces_loose hseparator 0 cs)
  rw [List.map_map, List.map_map] at hwords
  have hpieces : (pieces (some separator) 0 (loose cs)).map collapse =
      (pieces (some separator) 0 cs).map spaced := hwords
  rw [← filter_map_pieces fun _ => spaced_eq_nil_iff, ← hpieces,
    filter_map_pieces fun _ => collapse_eq_nil_iff,
    ← topLevelParts_collapse (not_blank_of_isMark hseparator), spaced]

/-! ## Rigid parts -/

/-- A part gives no choice where to put blanks: it has no mark in it, or it is one. -/
def Rigid (part : List Char) : Prop := (∃ c ∈ part, isMark c = true) → part.length = 1

instance (part : List Char) : Decidable (Rigid part) :=
  decidable_of_iff (part.any isMark = true → part.length = 1) (by rw [Rigid, List.any_eq_true])

theorem collapse_eq_of_spaced_eq {piece' : List Char} (hrigid : Rigid (trim piece))
    (h : spaced piece' = spaced piece) : collapse piece' = collapse piece := by
  have hvisible : visible piece' = visible piece := by rw [← visible_spaced, h, visible_spaced]
  by_cases hmarks : ∃ c ∈ trim piece, isMark c = true
  · -- both pieces are a mark with blanks around it
    obtain ⟨m, htrim⟩ := List.length_eq_one_iff.mp (hrigid hmarks)
    have hmark : isMark m = true := by simpa [htrim] using hmarks
    have hsingle : visible piece = [m] := by rw [← visible_trim, htrim, visible_mark hmark]
    rw [← collapse_trim piece', trim_eq_of_visible_eq_singleton (hvisible.trans hsingle),
      ← collapse_trim piece, htrim]
  · have hplain : ∀ c ∈ piece, isMark c = false := fun c hc =>
      Bool.eq_false_iff.mpr fun hmark =>
        hmarks ⟨c, mem_of_visible_eq (visible_trim piece).symm hmark hc, hmark⟩
    have hplain' : ∀ c ∈ piece', isMark c = false := fun c hc =>
      Bool.eq_false_iff.mpr fun hmark =>
        absurd (hplain c (mem_of_visible_eq hvisible hmark hc)) (by simp [hmark])
    rwa [spaced, spaced, loose_of_no_mark hplain, loose_of_no_mark hplain'] at h

/-- What one key decides for every element of a list it decides for the list. -/
theorem map_eq_of_map_eq {α β γ : Type} {f : α → β} {g : α → γ} {list list' : List α}
    (h : list'.map f = list.map f) (hg : ∀ x ∈ list, ∀ x', f x' = f x → g x' = g x) :
    list'.map g = list.map g := by
  induction list generalizing list' with
  | nil => rw [List.map_eq_nil_iff.mp h]
  | cons x list ih =>
    obtain ⟨x', rest', rfl, hx, hrest⟩ := List.map_eq_cons_iff.mp h
    obtain ⟨hhead, htail⟩ := List.forall_mem_cons.mp hg
    rw [List.map_cons, List.map_cons, hhead x' hx, ih hrest htail]

theorem topLevelParts_of_rigid {cs' : List Char}
    (hrigid : ∀ part ∈ topLevelParts (some '|') cs, Rigid part) (h : spaced cs' = spaced cs) :
    topLevelParts (some '|') (collapse cs') = topLevelParts (some '|') (collapse cs) := by
  have hbar : isMark '|' = true := by decide
  have hspaced := congrArg (topLevelParts (some '|')) h
  rw [topLevelParts_spaced hbar, topLevelParts_spaced hbar] at hspaced
  rw [topLevelParts_eq_map_trim, List.forall_mem_map] at hrigid
  rw [topLevelParts_collapse (not_blank_of_isMark hbar),
    topLevelParts_collapse (not_blank_of_isMark hbar)]
  exact map_eq_of_map_eq hspaced fun piece hpiece piece' hpair =>
    collapse_eq_of_spaced_eq (hrigid piece hpiece) hpair

/-! ## Alternatives of reformatted texts -/

/-- With blanks around the marks no part is read as a bracketed spelling. -/
theorem spelling_eq_plain_of_isChain (h : cs.IsChain Apart) : spelling cs = .plain := by
  refine spelling_eq_plain_iff.mpr ⟨fun inner hcs => ?_, fun inner hcs => ?_⟩
  · have hopening : optionalOpening.IsChain Apart :=
      h.prefix ⟨inner ++ [']'], by rw [hcs, List.append_assoc]⟩
    revert hopening
    decide
  · have hopening : unionOpening.IsChain Apart :=
      h.prefix ⟨inner ++ [']'], by rw [hcs, List.append_assoc]⟩
    revert hopening
    decide

theorem spaced_mem_alternatives (h : piece ∈ solidPieces '|' cs) :
    spaced piece ∈ alternatives (spaced cs) := by
  have hpart : spaced piece ∈ topLevelParts (some '|') (spaced cs) := by
    rw [topLevelParts_spaced (by decide)]
    exact List.mem_map_of_mem h
  rw [alternatives_eq, List.mem_flatMap]
  refine ⟨spaced piece, hpart, ?_⟩
  rw [expand, spelling_eq_plain_of_isChain (isChain_apart_spaced piece)]
  exact List.mem_singleton_self _

theorem isChain_close_of_mem_alternatives {atom : List Char}
    (h : atom ∈ alternatives (collapse (tight cs))) : atom.IsChain Close := by
  rcases infix_of_mem_alternatives h with hwithin | rfl
  · exact List.IsChain.infix (isChain_close_collapse_tight cs) hwithin
  · decide

/-- A text has the same alternatives however blanks are put beside its marks, exactly if all
its parts are rigid. -/
theorem mem_alternatives_reformatted_iff (cs : List Char) :
    (∀ cs' : List Char, tight cs' = tight cs →
        ∀ atom, atom ∈ alternatives (collapse cs') ↔ atom ∈ alternatives (collapse cs)) ↔
      ∀ part ∈ topLevelParts (some '|') cs, Rigid part := by
  constructor
  · intro hsame part hpart
    rintro ⟨m, hm, hmark⟩
    rw [topLevelParts_eq_map_trim] at hpart
    obtain ⟨piece, hpiece, rfl⟩ := List.mem_map.mp hpart
    -- an alternative of the spaced text is one of the tight text too
    have htight : tight (tight cs) = tight cs := tight_eq_tight_iff.mpr (spaced_tight cs)
    have hmem : spaced piece ∈ alternatives (collapse (tight cs)) := by
      have hspaced := spaced_mem_alternatives hpiece
      rw [hsame (tight cs) htight, ← hsame (spaced cs) (tight_spaced cs), spaced, collapse_collapse]
      exact hspaced
    have hvisible : visible (spaced piece) = visible (trim piece) := by
      rw [visible_spaced, visible_trim]
    have hsingle := eq_singleton_of_isChain (isChain_apart_spaced piece)
      (isChain_close_of_mem_alternatives hmem) (mem_of_visible_eq hvisible.symm hmark hm) hmark
    rw [hsingle, visible_trim] at hvisible
    have hvisible' : visible piece = [m] := hvisible.symm.trans (visible_mark hmark)
    rw [trim_eq_of_visible_eq_singleton hvisible', List.length_singleton]
  · intro hrigid cs' htight atom
    rw [alternatives_eq, alternatives_eq,
      topLevelParts_of_rigid hrigid (tight_eq_tight_iff.mp htight)]

end ApiDrift.TypeText
