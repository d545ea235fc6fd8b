import ApiDrift.TypeText.Brackets

set_option autoImplicit false

/-!
# The alternatives of a union type

A union is written with bars between its alternatives, or in one of two
bracketed spellings: an optional type, which is the type or nothing, and a union
with commas between its alternatives.  The bracketed spellings are opened
wherever they stand as an alternative, to any depth.  A text that is no union
has itself as its only alternative.
-/

namespace ApiDrift.TypeText

open ApiDrift.Text

/-! ## The bracketed spellings -/

/-- How an optional type begins. -/
def optionalOpening : List Char := "Optional[".toList

/-- How a bracketed union begins. -/
def unionOpening : List Char := "Union[".toList

/-- The alternative that an optional type adds. -/
def noneText : List Char := "None".toList

/-- What stands between the given opening and a closing square bracket at the
end of the text. -/
def inside? (opening cs : List Char) : Option (List Char) :=
  let rest := cs.drop opening.length
  if opening.isPrefixOf cs ∧ rest.getLast? = some ']' then some rest.dropLast else none

theorem inside?_eq_some_iff {opening cs inner : List Char} :
    inside? opening cs = some inner ↔ cs = opening ++ inner ++ [']'] := by
  constructor
  · intro h
    unfold inside? at h
    dsimp only at h
    split at h
    · rename_i found
      obtain ⟨rest, rfl⟩ := List.isPrefixOf_iff_prefix.mp found.1
      rw [List.drop_left] at h found
      obtain ⟨body, rfl⟩ := List.getLast?_eq_some_iff.mp found.2
      rw [List.dropLast_concat] at h
      rw [← Option.some.inj h, List.append_assoc]
    · simp at h
  · rintro rfl
    have starts : opening.isPrefixOf (opening ++ inner ++ [']']) = true :=
      List.isPrefixOf_iff_prefix.mpr ⟨inner ++ [']'], by rw [List.append_assoc]⟩
    rw [inside?, List.append_assoc, List.drop_left]
    rw [List.append_assoc] at starts
    simp [starts]

theorem length_lt_of_inside? {opening cs inner : List Char}
    (h : inside? opening cs = some inner) : inner.length < cs.length := by
  rw [inside?_eq_some_iff.mp h]
  simp only [List.length_append, List.length_singleton]
  omega

/-- The ways in which one alternative of a union is written. -/
inductive Spelling where
  | optional (inner : List Char)
  | union (items : List (List Char))
  | plain
  deriving DecidableEq, Repr, Inhabited

/-- The spelling of an alternative. -/
def spelling (part : List Char) : Spelling :=
  match inside? optionalOpening part with
  | some inner => .optional inner
  | none =>
    match inside? unionOpening part with
    | some inner => .union (topLevelParts (some ',') inner)
    | none => .plain

theorem length_lt_of_spelling_optional {part inner : List Char}
    (h : spelling part = .optional inner) : inner.length < part.length := by
  unfold spelling at h
  split at h
  · rename_i hin
    cases h
    exact length_lt_of_inside? hin
  · split at h <;> simp at h

theorem length_lt_of_spelling_union {part item : List Char} {items : List (List Char)}
    (h : spelling part = .union items) (mem : item ∈ items) : item.length < part.length := by
  unfold spelling at h
  split at h
  · simp at h
  · split at h
    · rename_i hin
      cases h
      exact Nat.lt_of_le_of_lt (length_le_of_mem_topLevelParts mem) (length_lt_of_inside? hin)
    · simp at h

/-! ## Alternatives -/

/-- The alternatives of a type text from left to right, with repetitions.  What
stands inside a bracketed spelling is shorter than the text, so opening the
spellings comes to an end. -/
def alternatives (cs : List Char) : List (List Char) :=
  (topLevelParts (some '|') cs).attach.flatMap fun ⟨part, _mem⟩ =>
    match _h : spelling part with
    | .optional inner => alternatives inner ++ [noneText]
    | .union items => items.attach.flatMap fun ⟨item, _⟩ => alternatives item
    | .plain => [part]
termination_by cs.length
decreasing_by
  · exact Nat.lt_of_lt_of_le (length_lt_of_spelling_optional _h)
      (length_le_of_mem_topLevelParts _mem)
  · exact Nat.lt_of_lt_of_le (length_lt_of_spelling_union _h (by assumption))
      (length_le_of_mem_topLevelParts _mem)

/-- The alternatives that one top-level part of a type text stands for. -/
def expand (part : List Char) : List (List Char) :=
  match spelling part with
  | .optional inner => alternatives inner ++ [noneText]
  | .union items => items.flatMap alternatives
  | .plain => [part]

theorem alternatives_eq (cs : List Char) :
    alternatives cs = (topLevelParts (some '|') cs).flatMap expand := by
  rw [alternatives]
  conv => rhs; rw [← List.attach_map_subtype_val (topLevelParts (some '|') cs), List.flatMap_map]
  congr 1
  funext ⟨part, mem⟩
  unfold expand
  dsimp only
  cases spelling part with
  | optional inner => rfl
  | union items => simp
  | plain => rfl

/-- The distinct alternatives of a type text, each at its first place. -/
def unionMembers (text : String) : List String :=
  (alternatives text.toList).eraseDups.map String.ofList

end ApiDrift.TypeText
