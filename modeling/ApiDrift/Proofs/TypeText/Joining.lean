import ApiDrift.Proofs.TypeText.NormalForm

set_option autoImplicit false

/-!
# Texts in a row

When a text is followed by another one, its last piece goes on as the first piece of what
follows.  A separator at depth zero between the two keeps even these apart, and the blanks
around it are trimmed away.  So the alternatives on both sides of a bar are those of each
side, one behind the other.
-/

namespace ApiDrift.TypeText

open ApiDrift.Text

variable {separator : Char} {depth : Nat} {a b cs blanks gap : List Char}

/-! ## Pieces of a row -/

theorem depthBehind_append (depth : Nat) (a b : List Char) :
    depthBehind depth (a ++ b) = depthBehind (depthBehind depth a) b := List.foldl_append

theorem exists_pieces_eq_concat (separator : Char) (depth : Nat) (cs : List Char) :
    ∃ front last, pieces (some separator) depth cs = front ++ [last] := by
  rcases List.eq_nil_or_concat' (pieces (some separator) depth cs) with hnil | hconcat
  · exact absurd hnil (pieces_ne_nil _ _ _)
  · exact hconcat

/-- The last piece of a text goes on as the first piece of what follows. -/
theorem pieces_append {front rest : List (List Char)} {last first : List Char}
    (ha : pieces (some separator) depth a = front ++ [last])
    (hb : pieces (some separator) (depthBehind depth a) b = first :: rest) :
    pieces (some separator) depth (a ++ b) = front ++ (last ++ first) :: rest := by
  induction a generalizing depth front last with
  | nil =>
    have hends : [] ++ [[]] = front ++ [last] := ha
    obtain ⟨hfront, hlast⟩ := List.append_inj' hends rfl
    rw [← hfront, ← List.singleton_inj.mp hlast]
    exact hb
  | cons c a ih =>
    obtain ⟨front', last', hpieces⟩ :=
      exists_pieces_eq_concat separator (depthAfter depth c) a
    rw [pieces, hpieces] at ha
    rw [List.cons_append, pieces, ih hpieces hb]
    split at ha
    · rename_i hcut
      have hends : ([] :: front') ++ [last'] = front ++ [last] := ha
      obtain ⟨hfront, hlast⟩ := List.append_inj' hends rfl
      rw [if_pos hcut, ← hfront, List.singleton_inj.mp hlast, List.cons_append]
    · rename_i hkept
      rw [if_neg hkept]
      cases front' with
      | nil =>
        have hends : [] ++ [c :: last'] = front ++ [last] := ha
        obtain ⟨hfront, hlast⟩ := List.append_inj' hends rfl
        rw [← hfront, ← List.singleton_inj.mp hlast]
        rfl
      | cons piece front' =>
        have hends : ((c :: piece) :: front') ++ [last'] = front ++ [last] := ha
        obtain ⟨hfront, hlast⟩ := List.append_inj' hends rfl
        rw [← hfront, ← List.singleton_inj.mp hlast]
        rfl

/-- A separator at depth zero keeps the pieces of two texts apart. -/
theorem pieces_append_separator (h : depthAfter (depthBehind depth a) separator = 0) :
    pieces (some separator) depth (a ++ separator :: b) =
      pieces (some separator) depth a ++ pieces (some separator) 0 b := by
  obtain ⟨front, last, ha⟩ := exists_pieces_eq_concat separator depth a
  have hb : pieces (some separator) (depthBehind depth a) (separator :: b) =
      [] :: pieces (some separator) 0 b := by rw [pieces, if_pos ⟨rfl, h⟩, h]
  rw [pieces_append ha hb, ha, List.append_nil, List.append_assoc, List.singleton_append]

/-! ## Blanks around a text -/

theorem whole_of_not_mem (h : separator ∉ cs) (depth : Nat) : Whole separator depth cs := by
  rintro front back rfl
  exact absurd (List.mem_append_right front List.mem_cons_self) h

theorem depthBehind_of_allBlank (h : AllBlank blanks) (depth : Nat) :
    depthBehind depth blanks = depth := by
  induction blanks with
  | nil => rfl
  | cons c blanks ih =>
    obtain ⟨hc, hrest⟩ := List.forall_mem_cons.mp h
    rw [depthBehind, List.foldl_cons, depthAfter_of_isBlank hc]
    exact ih hrest

theorem pieces_of_allBlank (h : AllBlank blanks) (hseparator : isBlank separator = false)
    (depth : Nat) : pieces (some separator) depth blanks = [blanks] := by
  refine pieces_eq_singleton_iff.mpr (whole_of_not_mem (fun hmem => ?_) depth)
  rw [h separator hmem] at hseparator
  cases hseparator

theorem topLevelParts_append_left (h : AllBlank blanks) (hseparator : isBlank separator = false)
    (cs : List Char) :
    topLevelParts (some separator) (blanks ++ cs) = topLevelParts (some separator) cs := by
  obtain ⟨first, rest, hcs⟩ := List.exists_cons_of_ne_nil (pieces_ne_nil (some separator) 0 cs)
  have hblanks : pieces (some separator) 0 blanks = [] ++ [blanks] :=
    pieces_of_allBlank h hseparator 0
  have hrow := pieces_append hblanks ((depthBehind_of_allBlank h 0).symm ▸ hcs)
  rw [topLevelParts, topLevelParts, hrow, hcs, List.nil_append, List.map_cons, List.map_cons,
    trim_append_left h]

theorem topLevelParts_append_right (h : AllBlank blanks)
    (hseparator : isBlank separator = false) (cs : List Char) :
    topLevelParts (some separator) (cs ++ blanks) = topLevelParts (some separator) cs := by
  obtain ⟨front, last, hcs⟩ := exists_pieces_eq_concat separator 0 cs
  have hrow := pieces_append hcs (pieces_of_allBlank h hseparator _)
  rw [topLevelParts, topLevelParts, hrow, hcs, List.map_append, List.map_append, List.map_singleton,
    List.map_singleton, trim_append_right h]

theorem topLevelParts_trim (hseparator : isBlank separator = false) (cs : List Char) :
    topLevelParts (some separator) (trim cs) = topLevelParts (some separator) cs := by
  obtain ⟨front, back, hfront, hback, hcs⟩ := exists_eq_append_trim cs
  conv_rhs => rw [hcs]
  rw [topLevelParts_append_right hback hseparator, topLevelParts_append_left hfront hseparator]

/-! ## Rows of texts -/

/-- A gap between two texts is a separator with blanks around it. -/
def IsGap (separator : Char) (gap : List Char) : Prop :=
  ∃ front back, AllBlank front ∧ AllBlank back ∧ gap = front ++ separator :: back

/-- A character can separate texts: it is no blank, and it does not open a bracket. -/
structure IsSeparator (separator : Char) : Prop where
  not_blank : isBlank separator = false
  at_zero : depthAfter 0 separator = 0

theorem isSeparator_bar : IsSeparator '|' := ⟨by decide, by decide⟩

theorem isSeparator_comma : IsSeparator ',' := ⟨by decide, by decide⟩

theorem topLevelParts_append_gap (hseparator : IsSeparator separator) (hgap : IsGap separator gap)
    (ha : depthBehind 0 a = 0) (b : List Char) :
    topLevelParts (some separator) (a ++ gap ++ b) =
      topLevelParts (some separator) a ++ topLevelParts (some separator) b := by
  obtain ⟨front, back, hfront, hback, rfl⟩ := hgap
  have hrow : a ++ (front ++ separator :: back) ++ b = a ++ front ++ separator :: (back ++ b) := by
    simp
  have hdepth : depthAfter (depthBehind 0 (a ++ front)) separator = 0 := by
    rw [depthBehind_append, ha, depthBehind_of_allBlank hfront, hseparator.at_zero]
  have hleft := topLevelParts_append_right hfront hseparator.not_blank a
  have hright := topLevelParts_append_left hback hseparator.not_blank b
  rw [← hleft, ← hright, hrow, topLevelParts, pieces_append_separator hdepth, List.map_append,
    List.filter_append]
  rfl

theorem topLevelParts_intercalate (hseparator : IsSeparator separator) (hgap : IsGap separator gap)
    {texts : List (List Char)} (h : ∀ cs ∈ texts, depthBehind 0 cs = 0) :
    topLevelParts (some separator) (gap.intercalate texts) =
      texts.flatMap (topLevelParts (some separator)) := by
  induction texts with
  | nil => simp [topLevelParts, pieces, trim, trimStart, trimEnd]
  | cons cs texts ih =>
    obtain ⟨hcs, hrest⟩ := List.forall_mem_cons.mp h
    cases texts with
    | nil => simp
    | cons cs' texts =>
      rw [List.intercalate_cons_cons, topLevelParts_append_gap hseparator hgap hcs, ih hrest]
      rfl

/-! ## Alternatives of a row -/

theorem alternatives_trim (cs : List Char) : alternatives (trim cs) = alternatives cs := by
  rw [alternatives_eq, alternatives_eq, topLevelParts_trim isSeparator_bar.not_blank]

theorem isGap_bar : IsGap '|' " | ".toList :=
  ⟨[' '], [' '], allBlank_singleton isBlank_space, allBlank_singleton isBlank_space, by decide⟩

/-- Alternatives on both sides of a bar are those of each side. -/
theorem alternatives_append_bar (ha : depthBehind 0 a = 0) (b : List Char) :
    alternatives (a ++ " | ".toList ++ b) = alternatives a ++ alternatives b := by
  rw [alternatives_eq, alternatives_eq, alternatives_eq,
    topLevelParts_append_gap isSeparator_bar isGap_bar ha, List.flatMap_append]

theorem unionMembers_eq_eraseDups (text : String) :
    unionMembers text = ((alternatives text.toList).map String.ofList).eraseDups :=
  map_eraseDups fun _ _ _ _ hsame => String.ofList_inj.mp hsame

/-- The members of a union of two texts are those of the first one, and then those of the second
one that are new. -/
theorem unionMembers_append_bar {a b : String} (ha : depthBehind 0 a.toList = 0) :
    unionMembers (a ++ " | " ++ b) = (unionMembers a ++ unionMembers b).eraseDups := by
  have hrow : (a ++ " | " ++ b).toList = a.toList ++ " | ".toList ++ b.toList := by simp
  rw [unionMembers_eq_eraseDups, unionMembers_eq_eraseDups a, unionMembers_eq_eraseDups b, hrow,
    alternatives_append_bar ha, List.map_append, eraseDups_eraseDups_append,
    eraseDups_append_eraseDups]

end ApiDrift.TypeText
