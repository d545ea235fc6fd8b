import ApiDrift.Proofs.Text.Words
import ApiDrift.Proofs.TypeText.Joining

set_option autoImplicit false

/-!
# Splitting loses nothing

A separator that is no bracket leaves the depth as it is, so where a text is cut no bracket is
open, and none is open behind any part but the last one.  Put together again the parts are cut
where they were put together and nowhere else.  What is gone then are the separators at which
the text was cut, and blanks.
-/

namespace ApiDrift.TypeText

open ApiDrift.Text

variable {separator : Char} {depth : Nat} {cs part : List Char}

/-! ## Depth behind the parts -/

/-- All elements of a list but the last one, told from its first one on. -/
theorem forall_mem_dropLast_cons {α : Type} {P : α → Prop} {a : α} {l : List α} :
    (∀ b ∈ (a :: l).dropLast, P b) ↔ (l ≠ [] → P a) ∧ ∀ b ∈ l.dropLast, P b := by
  cases l <;> simp

/-- A text is cut where no bracket is open, so none is open behind any piece but the last. -/
theorem closed_of_pieces_eq_cons (hseparator : isBracket separator = false)
    {first : List Char} {rest : List (List Char)}
    (h : pieces (some separator) depth cs = first :: rest) :
    (rest ≠ [] → depthBehind depth first = 0) ∧
      ∀ piece ∈ rest.dropLast, depthBehind 0 piece = 0 := by
  induction cs generalizing depth first rest with
  | nil =>
    obtain ⟨rfl, rfl⟩ := List.cons.inj h
    exact ⟨fun hne => absurd rfl hne, fun piece hpiece => absurd hpiece List.not_mem_nil⟩
  | cons c cs ih =>
    obtain ⟨first', rest', hpieces⟩ :=
      List.exists_cons_of_ne_nil (pieces_ne_nil (some separator) (depthAfter depth c) cs)
    obtain ⟨hfirst, hrest⟩ := ih hpieces
    rw [pieces, hpieces] at h
    split at h
    · rename_i hcut
      obtain ⟨rfl, rfl⟩ := List.cons.inj h
      have hzero : depth = 0 := by
        rw [← depthAfter_of_not_bracket (Option.some.inj hcut.1 ▸ hseparator) depth, hcut.2]
      rw [hcut.2] at hfirst
      exact ⟨fun _ => hzero, forall_mem_dropLast_cons.mpr ⟨hfirst, hrest⟩⟩
    · rw [List.modifyHead_cons] at h
      obtain ⟨rfl, rfl⟩ := List.cons.inj h
      exact ⟨hfirst, hrest⟩

theorem closed_of_mem_dropLast_pieces (hseparator : isBracket separator = false)
    (cs : List Char) :
    ∀ piece ∈ (pieces (some separator) 0 cs).dropLast, depthBehind 0 piece = 0 := by
  obtain ⟨first, rest, hpieces⟩ :=
    List.exists_cons_of_ne_nil (pieces_ne_nil (some separator) 0 cs)
  rw [hpieces, forall_mem_dropLast_cons]
  exact closed_of_pieces_eq_cons hseparator hpieces

theorem depthBehind_trim (depth : Nat) (cs : List Char) :
    depthBehind depth (trim cs) = depthBehind depth cs := by
  obtain ⟨front, back, hfront, hback, hcs⟩ := exists_eq_append_trim cs
  conv_rhs => rw [hcs]
  rw [depthBehind_append, depthBehind_append, depthBehind_of_allBlank hfront,
    depthBehind_of_allBlank hback]

/-- No bracket is open behind any part of a text but the last one. -/
theorem closed_of_mem_dropLast_topLevelParts (hseparator : isBracket separator = false)
    (h : part ∈ (topLevelParts (some separator) cs).dropLast) : depthBehind 0 part = 0 := by
  obtain ⟨front, last, hpieces⟩ := exists_pieces_eq_concat separator 0 cs
  have hclosed := closed_of_mem_dropLast_pieces hseparator cs
  rw [hpieces, List.dropLast_concat] at hclosed
  have hfront : part ∈ (front.map trim).filter fun part => !part.isEmpty := by
    rw [topLevelParts, hpieces, List.map_append, List.filter_append, List.map_singleton,
      List.filter_singleton] at h
    -- the last part comes from the last piece, or from an earlier one if that is blank
    cases hblank : (trim last).isEmpty with
    | true =>
      rw [hblank] at h
      exact List.dropLast_subset _ (by simpa using h)
    | false =>
      rw [hblank] at h
      simpa using h
  obtain ⟨piece, hpiece, rfl⟩ := List.mem_map.mp (List.mem_of_mem_filter hfront)
  rw [depthBehind_trim]
  exact hclosed piece hpiece

/-! ## Putting parts together -/

/-- Whole texts that are put together at depth zero are the pieces of what they make up. -/
theorem pieces_intercalate (hseparator : isBracket separator = false) {texts : List (List Char)}
    (hne : texts ≠ []) (hwhole : ∀ cs ∈ texts, Whole separator 0 cs)
    (hclosed : ∀ cs ∈ texts.dropLast, depthBehind 0 cs = 0) :
    pieces (some separator) 0 ([separator].intercalate texts) = texts := by
  induction texts with
  | nil => exact absurd rfl hne
  | cons first texts ih =>
    obtain ⟨hfirst, hrest⟩ := List.forall_mem_cons.mp hwhole
    rw [forall_mem_dropLast_cons] at hclosed
    cases texts with
    | nil =>
      rw [List.intercalate_singleton]
      exact pieces_eq_singleton_iff.mpr hfirst
    | cons second texts =>
      have hne' : second :: texts ≠ [] := List.cons_ne_nil second texts
      have hdepth : depthAfter (depthBehind 0 first) separator = 0 := by
        rw [depthAfter_of_not_bracket hseparator, hclosed.1 hne']
      rw [List.intercalate_cons_cons, List.append_assoc, List.singleton_append,
        pieces_append_separator hdepth, pieces_eq_singleton_iff.mpr hfirst,
        ih hne' hrest hclosed.2, List.singleton_append]

/-- Parts are not changed any more by trimming. -/
theorem filter_map_trim_of_isPart {parts : List (List Char)}
    (h : ∀ part ∈ parts, IsPart separator part) :
    ((parts.map trim).filter fun part => !part.isEmpty) = parts := by
  have htrimmed : parts.map trim = parts := by
    conv_rhs => rw [← List.map_id parts]
    exact List.map_congr_left fun part hpart => (h part hpart).trimmed
  rw [htrimmed, List.filter_eq_self]
  exact fun part hpart => by simpa using (h part hpart).nonempty

/-- The parts of a text are also the parts of what they make up with separators in between. -/
theorem topLevelParts_intercalate_topLevelParts (hseparator : isBracket separator = false)
    (cs : List Char) :
    topLevelParts (some separator) ([separator].intercalate (topLevelParts (some separator) cs)) =
      topLevelParts (some separator) cs := by
  by_cases hnone : topLevelParts (some separator) cs = []
  · rw [hnone]
    rfl
  · have hparts : ∀ part ∈ topLevelParts (some separator) cs, IsPart separator part :=
      fun part hpart => isPart_of_mem_topLevelParts hpart
    rw [topLevelParts, pieces_intercalate hseparator hnone
      (fun part hpart => (hparts part hpart).whole)
      fun part hpart => closed_of_mem_dropLast_topLevelParts hseparator hpart]
    exact filter_map_trim_of_isPart hparts

/-! ## What is cut out -/

/-- The characters of a text with the depths at which they are met. -/
def withDepths (depth : Nat) (cs : List Char) : List (Char × Nat) :=
  cs.zip (cs.scanl depthAfter depth)

/-- A text without the separators that are met at depth zero. -/
def withoutSeparators (separator : Char) (depth : Nat) (cs : List Char) : List Char :=
  ((withDepths depth cs).filter fun met => ¬ (met.1 = separator ∧ met.2 = 0)).map Prod.fst

theorem withoutSeparators_cons (separator : Char) (depth : Nat) (c : Char) (cs : List Char) :
    withoutSeparators separator depth (c :: cs) =
      if c = separator ∧ depth = 0 then withoutSeparators separator (depthAfter depth c) cs
      else c :: withoutSeparators separator (depthAfter depth c) cs := by
  rw [withoutSeparators, withDepths, List.scanl_cons, List.zip_cons_cons, List.filter_cons]
  split
  · rename_i hkept
    rw [if_neg (of_decide_eq_true hkept)]
    rfl
  · rename_i hcut
    rw [if_pos (by simpa using hcut)]
    rfl

/-- Between the separators at depth zero a text is kept in its pieces. -/
theorem flatten_pieces (hseparator : isBracket separator = false) (depth : Nat) (cs : List Char) :
    (pieces (some separator) depth cs).flatten = withoutSeparators separator depth cs := by
  induction cs generalizing depth with
  | nil => rfl
  | cons c cs ih =>
    have hcut : (some separator = some c ∧ depthAfter depth c = 0) ↔ c = separator ∧ depth = 0 := by
      rw [Option.some_inj, eq_comm]
      refine and_congr_right fun hsame => ?_
      rw [depthAfter_of_not_bracket (hsame ▸ hseparator)]
    obtain ⟨first, rest, hpieces⟩ :=
      List.exists_cons_of_ne_nil (pieces_ne_nil (some separator) (depthAfter depth c) cs)
    rw [withoutSeparators_cons, ← ih, pieces, if_congr hcut rfl rfl, hpieces]
    split
    · rw [List.flatten_cons, List.nil_append]
    · rw [List.modifyHead_cons, List.flatten_cons, List.flatten_cons, List.cons_append]

/-- The parts of a text hold what is visible of it apart from the separators. -/
theorem visible_flatten_topLevelParts (hseparator : isBracket separator = false)
    (cs : List Char) :
    visible (topLevelParts (some separator) cs).flatten =
      visible (withoutSeparators separator 0 cs) := by
  rw [topLevelParts, List.flatten_filter_not_isEmpty, ← flatten_pieces hseparator, visible, visible,
    List.filter_flatten, List.filter_flatten, List.map_map]
  exact congrArg List.flatten (List.map_congr_left fun piece _ => visible_trim piece)

/-! ## Main statement -/

theorem splitTopLevel_singleton (text : String) (separator : Char) :
    splitTopLevel text (String.singleton separator) =
      (topLevelParts (some separator) text.toList).map String.ofList := by
  rw [splitTopLevel, separatorOfText, String.toList_singleton]

theorem toList_splitTopLevel (text : String) (separator : Char) :
    (splitTopLevel text (String.singleton separator)).map String.toList =
      topLevelParts (some separator) text.toList := by
  rw [splitTopLevel_singleton, List.map_map]
  exact (List.map_congr_left fun part _ => String.toList_ofList).trans (List.map_id _)

/-- Split at a character that is no bracket, a text falls into trimmed parts that are not empty
and that splitting leaves alone.  With the separator between them the parts make up a text that
splits into the same parts.  Together they hold what is visible of the text, in its order and
without the separators that are met at depth zero. -/
theorem splitTopLevel_lossless (text : String) (separator : Char)
    (hseparator : isBracket separator = false) :
    let parts := splitTopLevel text (String.singleton separator)
    (∀ part ∈ parts, part ≠ "" ∧ trim part.toList = part.toList ∧
      splitTopLevel part (String.singleton separator) = [part]) ∧
    splitTopLevel ((String.singleton separator).intercalate parts) (String.singleton separator) =
      parts ∧
    visible (parts.flatMap String.toList) =
      visible (withoutSeparators separator 0 text.toList) := by
  intro parts
  have hparts : parts.map String.toList = topLevelParts (some separator) text.toList :=
    toList_splitTopLevel text separator
  refine ⟨fun part hpart => ?_, ?_, ?_⟩
  · have hmem : part.toList ∈ topLevelParts (some separator) text.toList :=
      hparts ▸ List.mem_map_of_mem hpart
    have hself := isPart_of_mem_topLevelParts hmem
    refine ⟨fun hempty => hself.nonempty ?_, hself.trimmed, ?_⟩
    · rw [hempty]
      rfl
    · rw [splitTopLevel_singleton, hself.topLevelParts_eq, List.map_singleton, String.ofList_toList]
  · rw [splitTopLevel_singleton, String.toList_intercalate, hparts, String.toList_singleton,
      topLevelParts_intercalate_topLevelParts hseparator]
    exact (splitTopLevel_singleton text separator).symm
  · rw [List.flatMap_def, hparts]
    exact visible_flatten_topLevelParts hseparator text.toList

/-- A bracket that stays open keeps the bar behind it in the last part, one that is closed too
often does not keep the next bar from cutting, and nothing comes of a blank between two bars. -/
theorem splitTopLevel_lossless_unbalanced :
    let text := "A | <B | C>) | | [D | E"
    let parts := ["A", "<B | C>)", "[D | E"]
    (isBracket '|' = false ∧ splitTopLevel text "|" = parts) ∧
      splitTopLevel "[D | E" "|" = ["[D | E"] ∧
      splitTopLevel "A|<B | C>)|[D | E" "|" = parts ∧
      "A<B|C>)[D|E".toList = visible (withoutSeparators '|' 0 text.toList) := by
  intro text parts
  have hparts : splitTopLevel text "|" = parts := by decide +kernel
  obtain ⟨hself, hagain, hvisible⟩ := splitTopLevel_lossless text '|' (by decide)
  rw [show String.singleton '|' = "|" from rfl, hparts] at hself hagain hvisible
  exact ⟨⟨by decide, hparts⟩, (hself "[D | E" (by decide)).2.2, hagain, hvisible⟩

end ApiDrift.TypeText
