import ApiDrift.Proofs.TypeText.Balance

set_option autoImplicit false

/-!
# Arrows in brackets

The scan takes the head of an arrow for a closing bracket, so every arrow in a type takes one
level off the brackets that are open there.  A bar in brackets is safe as long as some
stretch before it opens more brackets than it has arrows.  Where it does not, a function
type is cut in two at a bar that stands well inside its brackets.
-/

namespace ApiDrift.TypeText

open ApiDrift.Text

variable {name cs : List Char}

/-! ## Arrows -/

/-- A text without its arrows. -/
def withoutArrows : List Char → List Char
  | '=' :: '>' :: cs => withoutArrows cs
  | c :: cs => c :: withoutArrows cs
  | [] => []

/-- The number of arrows in a text. -/
def arrowCount : List Char → Nat
  | '=' :: '>' :: cs => arrowCount cs + 1
  | _ :: cs => arrowCount cs
  | [] => 0

/-- Every arrow closes a bracket too many. -/
theorem balance_eq_sub_arrowCount (cs : List Char) :
    balance cs = balance (withoutArrows cs) - arrowCount cs := by
  fun_induction withoutArrows cs with
  | case1 cs ih =>
    have hequals : bracketWeight '=' = 0 := by decide
    have hhead : bracketWeight '>' = -1 := by decide
    rw [balance_cons, balance_cons, hequals, hhead, ih, arrowCount]
    omega
  | case2 c cs hother ih =>
    rw [balance_cons, balance_cons, ih, arrowCount]
    · omega
    · exact hother
  | case3 => rfl

theorem withoutArrows_of_arrowCount_eq_zero (h : arrowCount cs = 0) : withoutArrows cs = cs := by
  fun_induction withoutArrows cs with
  | case1 cs ih => rw [arrowCount] at h; cases h
  | case2 c cs hother ih =>
    rw [arrowCount] at h
    · rw [ih h]
    · exact hother
  | case3 => rfl

/-! ## Applied names -/

/-- A name has no blanks, no brackets and no bars in it. -/
structure IsName (name : List Char) : Prop where
  nonempty : name ≠ []
  plain : ∀ c ∈ name, isBlank c = false ∧ bracketWeight c = 0 ∧ c ≠ '|'

instance (name : List Char) : Decidable (IsName name) :=
  decidable_of_iff
    (name ≠ [] ∧ (name.all fun c => !isBlank c && (bracketWeight c == 0 && c != '|')) = true)
    ⟨fun h => ⟨h.1, by simpa using h.2⟩, fun h => ⟨h.nonempty, by simpa using h.plain⟩⟩

/-- A name that is applied to what stands in angle brackets. -/
def applied (name cs : List Char) : List Char := name ++ '<' :: cs ++ ['>']

theorem getLast?_applied (name cs : List Char) : (applied name cs).getLast? = some '>' :=
  List.getLast?_concat

theorem IsName.depthBehind_eq (h : IsName name) (depth : Nat) : depthBehind depth name = depth := by
  have hbalance : ∀ front, front <+: name → balance front = 0 := fun front hfront =>
    balance_eq_zero fun c hc => (h.plain c (hfront.subset hc)).2.1
  have hbracketed : WellBracketed name :=
    ⟨fun front hfront => Int.le_of_eq (hbalance front hfront).symm, hbalance name List.prefix_rfl⟩
  exact hbracketed.depthBehind_eq depth

theorem IsName.whole_applied_iff (h : IsName name) :
    Whole '|' 0 (applied name cs) ↔ Whole '|' 1 cs := by
  have hname : Whole '|' 0 name := whole_of_not_mem (fun hbar => (h.plain _ hbar).2.2 rfl) 0
  have hend : ∀ depth, Whole '|' depth ['>'] := whole_of_not_mem (by decide)
  rw [applied, whole_append_iff, whole_append_iff, h.depthBehind_eq, whole_cons_iff]
  exact ⟨fun hall => hall.1.2.2, fun hcs => ⟨⟨hname, by decide, hcs⟩, hend _⟩⟩

/-- An applied name is one alternative exactly if no bar of it is cut. -/
theorem IsName.isAtom_applied_iff (h : IsName name) :
    IsAtom (applied name cs) ↔ Whole '|' 1 cs := by
  rw [← h.whole_applied_iff]
  refine ⟨fun hatom => hatom.whole, fun hwhole => ?_⟩
  have hlast : ∀ opening inner : List Char, applied name cs ≠ opening ++ inner ++ [']'] := by
    intro opening inner hsame
    have hends := congrArg List.getLast? hsame
    rw [getLast?_applied, List.getLast?_concat] at hends
    exact absurd hends (by decide)
  have htrimmed : trim (applied name cs) = applied name cs := by
    obtain ⟨c, rest, rfl⟩ := List.exists_cons_of_ne_nil h.nonempty
    have hfirst := (h.plain c List.mem_cons_self).1
    refine trim_eq_self_iff.mpr ⟨by simpa [applied] using hfirst, ?_⟩
    rw [getLast?_applied]
    exact fun c hc => Option.some.inj hc ▸ by decide
  exact ⟨⟨by simp [applied], htrimmed, hwhole⟩, hlast _, hlast _⟩

/-! ## Protected bars -/

/-- A bar is protected by a stretch before it that leaves more brackets open than it has arrows,
where an arrow is not read as a bracket. -/
def Protected (front : List Char) : Prop :=
  ∃ stretch, stretch <:+ front ∧ arrowCount stretch < balance (withoutArrows stretch)

theorem depthBehind_ne_zero_iff_protected : depthBehind 0 cs ≠ 0 ↔ Protected cs := by
  rw [depthBehind_ne_zero_iff, Protected]
  refine exists_congr fun stretch => and_congr_right fun _ => ?_
  rw [balance_eq_sub_arrowCount]
  omega

theorem whole_one_iff :
    Whole '|' 1 cs ↔ ∀ front back, cs = front ++ '|' :: back → Protected ('<' :: front) := by
  refine forall_congr' fun front => forall_congr' fun back => imp_congr_right fun _ => ?_
  rw [← depthBehind_ne_zero_iff_protected, depthBehind_append]
  rfl

/-- A name applied to a type whose brackets match, arrows not counted, is one alternative
exactly if every bar in the brackets is protected.  Without an arrow all are. -/
theorem unionMembers_applied_eq_singleton_iff {name text : String} (hname : IsName name.toList)
    (htext : WellBracketed (withoutArrows text.toList)) :
    (unionMembers (name ++ "<" ++ text ++ ">") = [name ++ "<" ++ text ++ ">"] ↔
        ∀ front back, text.toList = front ++ '|' :: back → Protected ('<' :: front)) ∧
      (arrowCount text.toList = 0 →
        unionMembers (name ++ "<" ++ text ++ ">") = [name ++ "<" ++ text ++ ">"]) := by
  have hchars : (name ++ "<" ++ text ++ ">").toList = applied name.toList text.toList := by
    simp [applied]
  rw [unionMembers_eq_singleton_iff, hchars, hname.isAtom_applied_iff]
  refine ⟨whole_one_iff, fun harrows => ?_⟩
  rw [withoutArrows_of_arrowCount_eq_zero harrows] at htext
  exact htext.whole (by decide) 0

/-- The second bracket protects the bar from the arrow. -/
theorem unionMembers_applied_nested :
    let name := "Promise"
    let text := "Map<K, (e) => A | B>"
    (IsName name.toList ∧ WellBracketed (withoutArrows text.toList) ∧ arrowCount text.toList = 1) ∧
      unionMembers "Promise<Map<K, (e) => A | B>>" = ["Promise<Map<K, (e) => A | B>>"] ∧
      Protected "<Map<K, (e) => A ".toList := by
  intro name text
  have hname : IsName name.toList := by decide
  have htext : WellBracketed (withoutArrows text.toList) := by decide +kernel
  have hmembers : unionMembers (name ++ "<" ++ text ++ ">") = [name ++ "<" ++ text ++ ">"] := by
    decide +kernel
  obtain ⟨hbars, -⟩ := unionMembers_applied_eq_singleton_iff hname htext
  exact ⟨⟨hname, htext, by decide⟩, hmembers,
    hbars.mp hmembers "Map<K, (e) => A ".toList " B>".toList (by decide)⟩

/-- The result type of a function in brackets is cut off at its bar. -/
theorem unionMembers_applied_not_always_singleton :
    ¬ ∀ name text : String, IsName name.toList → name ≠ "Optional" → name ≠ "Union" →
      WellBracketed (withoutArrows text.toList) →
        unionMembers (name ++ "<" ++ text ++ ">") = [name ++ "<" ++ text ++ ">"] := by
  intro h
  have hwhole := h "Promise" "(e) => A | B" (by decide) (by decide) (by decide) (by decide +kernel)
  have hcut : unionMembers ("Promise" ++ "<" ++ "(e) => A | B" ++ ">") =
      ["Promise<(e) => A", "B>"] := by decide +kernel
  rw [hcut] at hwhole
  exact absurd (congrArg List.length hwhole) (by decide)

end ApiDrift.TypeText
