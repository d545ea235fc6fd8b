import ApiDrift.Proofs.Distinct
import ApiDrift.Proofs.TypeText.Pieces
import ApiDrift.TypeText.Alternatives

set_option autoImplicit false

/-!
# The alternatives of a union are atoms

An atom is a text that nothing can be taken out of: it is trimmed, has no bar outside its
brackets, and is in none of the bracketed spellings.  Reading a union stops at atoms only,
however its brackets match, and an atom stands for itself.  So to read a text
twice gives what reading it once does, and the texts that stand for themselves are the
atoms.
-/

namespace ApiDrift.TypeText

open ApiDrift.Text

variable {cs part : List Char}

/-! ## Spellings -/

theorem spelling_eq_plain_iff :
    spelling part = .plain ↔
      (∀ inner, part ≠ optionalOpening ++ inner ++ [']']) ∧
        ∀ inner, part ≠ unionOpening ++ inner ++ [']'] := by
  simp only [ne_eq, ← inside?_eq_some_iff, ← Option.eq_none_iff_forall_ne_some]
  unfold spelling
  cases inside? optionalOpening part with
  | some inner => simp
  | none => cases inside? unionOpening part <;> simp

theorem infix_of_inside? {opening inner : List Char} (h : inside? opening part = some inner) :
    inner <:+: part := ⟨opening, [']'], (inside?_eq_some_iff.mp h).symm⟩

theorem infix_of_spelling_optional {inner : List Char} (h : spelling part = .optional inner) :
    inner <:+: part := by
  unfold spelling at h
  split at h
  · rename_i hinside
    rw [← Spelling.optional.inj h]
    exact infix_of_inside? hinside
  · split at h <;> cases h

theorem infix_of_spelling_union {items : List (List Char)} {item : List Char}
    (h : spelling part = .union items) (hitem : item ∈ items) : item <:+: part := by
  unfold spelling at h
  split at h
  · cases h
  · split at h
    · rename_i hinside
      rw [← Spelling.union.inj h] at hitem
      exact (infix_of_mem_topLevelParts hitem).trans (infix_of_inside? hinside)
    · cases h

/-! ## Atoms -/

/-- A text is one alternative: a part between bars that is in no bracketed spelling. -/
structure IsAtom (cs : List Char) : Prop extends IsPart '|' cs where
  not_optional : ∀ inner, cs ≠ optionalOpening ++ inner ++ [']']
  not_union : ∀ inner, cs ≠ unionOpening ++ inner ++ [']']

theorem isAtom_of_spelling_eq_plain (hpart : IsPart '|' cs) (h : spelling cs = .plain) :
    IsAtom cs :=
  ⟨hpart, (spelling_eq_plain_iff.mp h).1, (spelling_eq_plain_iff.mp h).2⟩

/-- What an optional type adds is an atom. -/
theorem isAtom_noneText : IsAtom noneText := by
  have hparts : noneText ∈ topLevelParts (some '|') noneText := by decide
  exact isAtom_of_spelling_eq_plain (isPart_of_mem_topLevelParts hparts) (by decide)

theorem IsAtom.alternatives_eq (h : IsAtom cs) : alternatives cs = [cs] := by
  have hplain : spelling cs = .plain := spelling_eq_plain_iff.mpr ⟨h.not_optional, h.not_union⟩
  rw [TypeText.alternatives_eq, h.topLevelParts_eq, List.flatMap_singleton, expand, hplain]

/-- An alternative of a text is one of its plain parts, or what an optional type adds, or an
alternative of what stands inside of a spelling. -/
theorem mem_alternatives_induction {atom : List Char} {P : List Char → Prop}
    (plain : ∀ cs, atom ∈ topLevelParts (some '|') cs → spelling atom = .plain → P cs)
    (added : ∀ cs, atom = noneText → P cs)
    (optional : ∀ cs part inner, part ∈ topLevelParts (some '|') cs →
      spelling part = .optional inner → P inner → P cs)
    (union : ∀ cs part items item, part ∈ topLevelParts (some '|') cs →
      spelling part = .union items → item ∈ items → P item → P cs)
    (h : atom ∈ alternatives cs) : P cs := by
  -- by the length of the text, since what stands inside a spelling is shorter
  induction hlength : cs.length using Nat.strong_induction_on generalizing cs with
  | _ length ih =>
    subst hlength
    rw [alternatives_eq] at h
    obtain ⟨part, hpart, hmem⟩ := List.mem_flatMap.mp h
    have hle := length_le_of_mem_topLevelParts hpart
    unfold expand at hmem
    cases hspelling : spelling part with
    | optional inner =>
      rw [hspelling] at hmem
      have hlt := length_lt_of_spelling_optional hspelling
      rcases List.mem_append.mp hmem with hinner | hnone
      · have hreached := ih inner.length (Nat.lt_of_lt_of_le hlt hle) hinner rfl
        exact optional cs part inner hpart hspelling hreached
      · exact added cs (List.mem_singleton.mp hnone)
    | union items =>
      rw [hspelling] at hmem
      obtain ⟨item, hitem, hinner⟩ := List.mem_flatMap.mp hmem
      have hlt := length_lt_of_spelling_union hspelling hitem
      have hreached := ih item.length (Nat.lt_of_lt_of_le hlt hle) hinner rfl
      exact union cs part items item hpart hspelling hitem hreached
    | plain =>
      rw [hspelling] at hmem
      rw [← List.mem_singleton.mp hmem] at hpart hspelling
      exact plain cs hpart hspelling

/-- Reading a text ends at atoms. -/
theorem isAtom_of_mem_alternatives {atom : List Char} (h : atom ∈ alternatives cs) :
    IsAtom atom := by
  refine mem_alternatives_induction (P := fun _ => IsAtom atom) ?plain ?added ?optional ?union h
  case plain =>
    exact fun cs hpart hplain =>
      isAtom_of_spelling_eq_plain (isPart_of_mem_topLevelParts hpart) hplain
  case added => exact fun cs hnone => hnone ▸ isAtom_noneText
  case optional => exact fun cs part inner _ _ hatom => hatom
  case union => exact fun cs part items item _ _ _ hatom => hatom

/-- Apart from what an optional type adds, the alternatives of a text are taken from it. -/
theorem infix_of_mem_alternatives {atom : List Char} (h : atom ∈ alternatives cs) :
    atom <:+: cs ∨ atom = noneText := by
  refine mem_alternatives_induction (P := fun cs => atom <:+: cs ∨ atom = noneText)
    ?plain ?added ?optional ?union h
  case plain => exact fun cs hpart _ => .inl (infix_of_mem_topLevelParts hpart)
  case added => exact fun cs hnone => .inr hnone
  case optional =>
    intro cs part inner hpart hspelling hinner
    exact hinner.imp_left fun hwithin =>
      (hwithin.trans (infix_of_spelling_optional hspelling)).trans
        (infix_of_mem_topLevelParts hpart)
  case union =>
    intro cs part items item hpart hspelling hitem hinner
    exact hinner.imp_left fun hwithin =>
      (hwithin.trans (infix_of_spelling_union hspelling hitem)).trans
        (infix_of_mem_topLevelParts hpart)

/-! ## Repetitions at every level -/

/-- The alternatives of a type text, read so that the repetitions are taken out of every text
on the way, and not only out of the last list. -/
def members (cs : List Char) : List (List Char) :=
  ((topLevelParts (some '|') cs).attach.flatMap fun ⟨part, _mem⟩ =>
    match _h : spelling part with
    | .optional inner => members inner ++ [noneText]
    | .union items => items.attach.flatMap fun ⟨item, _⟩ => members item
    | .plain => [part]).eraseDups
termination_by cs.length
decreasing_by
  · exact Nat.lt_of_lt_of_le (length_lt_of_spelling_optional _h)
      (length_le_of_mem_topLevelParts _mem)
  · exact Nat.lt_of_lt_of_le (length_lt_of_spelling_union _h (by assumption))
      (length_le_of_mem_topLevelParts _mem)

/-- What one top-level part adds to the members. -/
def partMembers (part : List Char) : List (List Char) :=
  match spelling part with
  | .optional inner => members inner ++ [noneText]
  | .union items => items.flatMap members
  | .plain => [part]

theorem members_eq_flatMap (cs : List Char) :
    members cs = ((topLevelParts (some '|') cs).flatMap partMembers).eraseDups := by
  rw [members]
  conv => rhs; rw [← List.attach_map_subtype_val (topLevelParts (some '|') cs), List.flatMap_map]
  congr 2
  funext ⟨part, hpart⟩
  unfold partMembers
  dsimp only
  cases spelling part with
  | optional inner => rfl
  | union items => simp
  | plain => rfl

/-- It makes no difference how often the repetitions are taken out. -/
theorem members_eq_eraseDups (cs : List Char) : members cs = (alternatives cs).eraseDups := by
  rw [members_eq_flatMap, alternatives_eq]
  refine eraseDups_flatMap_congr fun part hpart => ?_
  have hle := length_le_of_mem_topLevelParts hpart
  unfold partMembers expand
  cases hspelling : spelling part with
  | optional inner =>
    have hlt := length_lt_of_spelling_optional hspelling
    dsimp only
    rw [members_eq_eraseDups inner, eraseDups_eraseDups_append]
  | union items =>
    refine eraseDups_flatMap_congr fun item hitem => ?_
    have hlt := length_lt_of_spelling_union hspelling hitem
    rw [members_eq_eraseDups item, eraseDups_of_nodup (eraseDups_nodup _)]
  | plain => rfl
termination_by cs.length

theorem unionMembers_eq_members (text : String) :
    unionMembers text = (members text.toList).map String.ofList := by
  rw [members_eq_eraseDups]
  rfl

/-! ## Members of a union -/

theorem mem_unionMembers_iff {text member : String} :
    member ∈ unionMembers text ↔ member.toList ∈ alternatives text.toList := by
  rw [unionMembers, List.mem_map]
  constructor
  · rintro ⟨cs, hcs, rfl⟩
    rw [String.toList_ofList]
    exact List.mem_eraseDups.mp hcs
  · exact fun h => ⟨member.toList, List.mem_eraseDups.mpr h, String.ofList_toList⟩

theorem unionMembers_nodup (text : String) : (unionMembers text).Nodup :=
  (eraseDups_nodup _).map fun _ _ => String.ofList_inj.mp

theorem unionMembers_of_isAtom {text : String} (h : IsAtom text.toList) :
    unionMembers text = [text] := by
  rw [unionMembers, h.alternatives_eq]
  exact congrArg (· :: []) String.ofList_toList

theorem unionMembers_eq_singleton_iff {text : String} :
    unionMembers text = [text] ↔ IsAtom text.toList := by
  refine ⟨fun h => ?_, unionMembers_of_isAtom⟩
  have hmem : text ∈ unionMembers text := by
    rw [h]
    exact List.mem_singleton_self text
  exact isAtom_of_mem_alternatives (mem_unionMembers_iff.mp hmem)

/-- The members of a union are distinct and trimmed texts, none of them is empty, and each
is the only member of itself.  The texts that are the only members of themselves are the
atoms. -/
theorem unionMembers_normalForm (text : String) :
    (unionMembers text).Nodup ∧
      (∀ member ∈ unionMembers text,
        member ≠ "" ∧ trim member.toList = member.toList ∧ unionMembers member = [member]) ∧
      (unionMembers text = [text] ↔ IsAtom text.toList) := by
  refine ⟨unionMembers_nodup text, fun member hmember => ?_, unionMembers_eq_singleton_iff⟩
  have hatom := isAtom_of_mem_alternatives (mem_unionMembers_iff.mp hmember)
  refine ⟨fun hempty => hatom.nonempty ?_, hatom.trimmed, unionMembers_of_isAtom hatom⟩
  rw [hempty]
  rfl

/-- Spellings are opened to the innermost one, a bracket that is closed too often cuts nothing
off, and one that stays open keeps the bar behind it. -/
theorem unionMembers_normalForm_unbalanced :
    let text := "Optional[Union[A, B | A]] | C) | <D | E"
    (unionMembers text = ["A", "B", "None", "C)", "<D | E"] ∧ "<D | E" ∈ unionMembers text) ∧
      (unionMembers text).Nodup ∧ unionMembers "<D | E" = ["<D | E"] ∧
        ¬ IsAtom text.toList := by
  intro text
  have hmembers : unionMembers text = ["A", "B", "None", "C)", "<D | E"] := by decide +kernel
  have hmember : "<D | E" ∈ unionMembers text := by
    rw [hmembers]
    decide
  obtain ⟨hnodup, hatoms, hself⟩ := unionMembers_normalForm text
  refine ⟨⟨hmembers, hmember⟩, hnodup, (hatoms _ hmember).2.2, fun h => ?_⟩
  have hsame := congrArg List.length (hself.mpr h)
  rw [hmembers] at hsame
  cases hsame

end ApiDrift.TypeText
