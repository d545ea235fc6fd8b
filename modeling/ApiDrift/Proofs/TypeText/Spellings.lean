import ApiDrift.Proofs.TypeText.Balance

set_option autoImplicit false

/-!
# Spellings of a union

What stands in a bracketed spelling is scanned one level deeper than the same text between
bars.  If its brackets match, the depth comes back to where it was, so nothing is cut in
the brackets that is not cut without them.  That makes the bracketed spellings of a union
and the one with bars the same list of alternatives.
-/

namespace ApiDrift.TypeText

open ApiDrift.Text

variable {cs inner opening : List Char}

/-! ## Bracketed spellings -/

/-- How a bracketed spelling begins: with a name and the bracket that stays open. -/
structure IsOpening (opening : List Char) : Prop where
  starts : trimStart opening = opening
  whole : Whole '|' 0 opening
  opens : depthBehind 0 opening = 1

theorem isOpening_optional : IsOpening optionalOpening := ⟨by decide, by decide, by decide⟩

theorem isOpening_union : IsOpening unionOpening := ⟨by decide, by decide, by decide⟩

/-- A bracketed spelling is one part between bars. -/
theorem IsOpening.isPart (h : IsOpening opening) (hinner : WellBracketed inner) :
    IsPart '|' (opening ++ inner ++ [']']) := by
  have hne : opening ≠ [] := by
    rintro rfl
    exact absurd h.opens (by decide)
  refine ⟨by simp, trim_eq_self_iff.mpr ⟨?_, by simp; decide⟩, ?_⟩
  · obtain ⟨c, rest, rfl⟩ := List.exists_cons_of_ne_nil hne
    have hfirst : ∀ d ∈ (c :: rest).head?, isBlank d = false := trimStart_eq_self_iff.mp h.starts
    exact hfirst
  · refine whole_append_iff.mpr ⟨whole_append_iff.mpr ⟨h.whole, ?_⟩, ?_⟩
    · rw [h.opens]
      exact hinner.whole (by decide) 0
    · exact whole_of_not_mem (by decide) _

theorem spelling_optional (inner : List Char) :
    spelling (optionalOpening ++ inner ++ [']']) = .optional inner := by
  rw [spelling, inside?_eq_some_iff.mpr rfl]

theorem spelling_union (inner : List Char) :
    spelling (unionOpening ++ inner ++ [']']) = .union (topLevelParts (some ',') inner) := by
  have hother : inside? optionalOpening (unionOpening ++ inner ++ [']']) = none := by
    refine Option.eq_none_iff_forall_ne_some.mpr fun other hother => ?_
    have hfirst : some 'U' = some 'O' := congrArg List.head? (inside?_eq_some_iff.mp hother)
    exact absurd hfirst (by decide)
  rw [spelling, hother, inside?_eq_some_iff.mpr rfl]

theorem alternatives_optional (h : WellBracketed inner) :
    alternatives (optionalOpening ++ inner ++ [']']) = alternatives inner ++ [noneText] := by
  rw [alternatives_eq, (isOpening_optional.isPart h).topLevelParts_eq, List.flatMap_singleton,
    expand, spelling_optional]

theorem alternatives_union (h : WellBracketed inner) :
    alternatives (unionOpening ++ inner ++ [']']) =
      (topLevelParts (some ',') inner).flatMap alternatives := by
  rw [alternatives_eq, (isOpening_union.isPart h).topLevelParts_eq, List.flatMap_singleton,
    expand, spelling_union]

/-! ## Lists of alternatives -/

theorem alternatives_nil : alternatives [] = [] := by
  rw [alternatives_eq]
  rfl

/-- An item without a comma stands for its alternatives, also if it is blank. -/
theorem flatMap_alternatives_of_whole (h : Whole ',' 0 cs) :
    (topLevelParts (some ',') cs).flatMap alternatives = alternatives cs := by
  rw [topLevelParts, pieces_eq_singleton_iff.mpr h, List.map_singleton, ← alternatives_trim cs]
  by_cases hblank : trim cs = []
  · rw [hblank, alternatives_nil]
    rfl
  · have hkept : [trim cs].filter (fun part => !part.isEmpty) = [trim cs] :=
      List.filter_eq_self.mpr (by simpa using hblank)
    rw [hkept, List.flatMap_singleton]

theorem isGap_comma : IsGap ',' ", ".toList :=
  ⟨[], [' '], fun _ h => absurd h List.not_mem_nil, allBlank_singleton isBlank_space, by decide⟩

theorem WellBracketed.intercalate {gap : List Char} {texts : List (List Char)}
    (hgap : WellBracketed gap) (h : ∀ cs ∈ texts, WellBracketed cs) :
    WellBracketed (gap.intercalate texts) := by
  induction texts with
  | nil => exact wellBracketed_nil
  | cons cs texts ih =>
    obtain ⟨hcs, hrest⟩ := List.forall_mem_cons.mp h
    cases texts with
    | nil => simpa using hcs
    | cons cs' texts =>
      rw [List.intercalate_cons_cons]
      exact (hcs.append hgap).append (ih hrest)

theorem alternatives_union_intercalate {texts : List (List Char)}
    (h : ∀ cs ∈ texts, WellBracketed cs ∧ Whole ',' 0 cs) :
    alternatives (unionOpening ++ ", ".toList.intercalate texts ++ [']']) =
      texts.flatMap alternatives := by
  have hbracketed : WellBracketed (", ".toList.intercalate texts) :=
    WellBracketed.intercalate (by decide) fun cs hcs => (h cs hcs).1
  have hdepth : ∀ cs ∈ texts, depthBehind 0 cs = 0 := fun cs hcs => (h cs hcs).1.depthBehind_eq 0
  rw [alternatives_union hbracketed, topLevelParts_intercalate isSeparator_comma isGap_comma hdepth,
    List.flatMap_assoc]
  exact List.flatMap_congr fun cs hcs => flatMap_alternatives_of_whole (h cs hcs).2

theorem alternatives_bars_intercalate {texts : List (List Char)}
    (h : ∀ cs ∈ texts, WellBracketed cs) :
    alternatives (" | ".toList.intercalate texts) = texts.flatMap alternatives := by
  rw [alternatives_eq,
    topLevelParts_intercalate isSeparator_bar isGap_bar fun cs hcs => (h cs hcs).depthBehind_eq 0,
    List.flatMap_assoc]
  exact List.flatMap_congr fun cs _ => (alternatives_eq cs).symm

/-- An optional type has the members of the union with the missing type, and a bracketed union
those of the union with bars, in the same order. -/
theorem unionMembers_spellings :
    (∀ text : String, WellBracketed text.toList →
      unionMembers ("Optional[" ++ text ++ "]") = unionMembers (text ++ " | None")) ∧
    ∀ texts : List String, (∀ text ∈ texts, WellBracketed text.toList ∧ Whole ',' 0 text.toList) →
      unionMembers ("Union[" ++ ", ".intercalate texts ++ "]") =
        unionMembers (" | ".intercalate texts) := by
  constructor
  · intro text htext
    have hleft : ("Optional[" ++ text ++ "]").toList = optionalOpening ++ text.toList ++ [']'] := by
      rw [String.toList_append, String.toList_append]
      rfl
    have hnone : " | None".toList = " | ".toList ++ noneText := by decide
    rw [unionMembers, unionMembers, hleft, String.toList_append, hnone, ← List.append_assoc,
      alternatives_optional htext, alternatives_append_bar (htext.depthBehind_eq 0),
      isAtom_noneText.alternatives_eq]
  · intro texts htexts
    have hitems : ∀ cs ∈ texts.map String.toList, WellBracketed cs ∧ Whole ',' 0 cs :=
      List.forall_mem_map.mpr htexts
    have hleft : ("Union[" ++ ", ".intercalate texts ++ "]").toList =
        unionOpening ++ ", ".toList.intercalate (texts.map String.toList) ++ [']'] := by
      rw [String.toList_append, String.toList_append, String.toList_intercalate]
      rfl
    rw [unionMembers, unionMembers, hleft, String.toList_intercalate,
      alternatives_union_intercalate hitems,
      alternatives_bars_intercalate fun cs hcs => (hitems cs hcs).1]

/-- The spellings are opened at every level, and an empty item adds nothing. -/
theorem unionMembers_spellings_nested :
    let text := "Map<K, V> | Union[A, Optional[B]]"
    let texts := ["Map<K, V>", "Optional[Union[A, A | B]]", ""]
    (WellBracketed text.toList ∧
        ∀ text ∈ texts, WellBracketed text.toList ∧ Whole ',' 0 text.toList) ∧
      unionMembers ("Optional[" ++ text ++ "]") = unionMembers (text ++ " | None") ∧
      unionMembers (text ++ " | None") = ["Map<K, V>", "A", "B", "None"] ∧
      unionMembers ("Union[" ++ ", ".intercalate texts ++ "]") =
        unionMembers (" | ".intercalate texts) := by
  intro text texts
  have htext : WellBracketed text.toList := by decide +kernel
  have htexts : ∀ text ∈ texts, WellBracketed text.toList ∧ Whole ',' 0 text.toList := by
    decide +kernel
  obtain ⟨hoptional, hunion⟩ := unionMembers_spellings
  exact ⟨⟨htext, htexts⟩, hoptional text htext, by decide +kernel, hunion texts htexts⟩

end ApiDrift.TypeText
