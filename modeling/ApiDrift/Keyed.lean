set_option autoImplicit false

/-!
# Lists with distinct keys

Exports are known by their names, modules by their paths and map entries by
their keys.  Where the keys of a list are distinct, looking a key up finds the
one element that has it, and what the elements give rise to under their keys can be
told apart by the keys.
-/

namespace ApiDrift.Keyed

variable {α β κ : Type}

/-- What elements give rise to under their own keys can be chosen by key before or
after. -/
theorem filter_flatMap {key : α → κ} {key' : β → κ} {f : α → List β} {l : List α}
    (keyed : ∀ x ∈ l, ∀ y ∈ f x, key' y = key x) (chosen : κ → Bool) :
    ((l.flatMap f).filter fun y => chosen (key' y)) =
      (l.filter fun x => chosen (key x)).flatMap f := by
  induction l with
  | nil => rfl
  | cons x l ih =>
    have rest := ih fun x' hx' => keyed x' (List.mem_cons_of_mem x hx')
    have own : ((f x).filter fun y => chosen (key' y)) = if chosen (key x) then f x else [] := by
      have same : ∀ y ∈ f x, chosen (key' y) = chosen (key x) :=
        fun y hy => congrArg chosen (keyed x List.mem_cons_self y hy)
      rw [List.filter_congr same]
      cases chosen (key x) <;> simp
    rw [List.flatMap_cons, List.filter_append, own, rest, List.filter_cons]
    cases chosen (key x) <;> simp

variable [DecidableEq κ]

/-- Looking up a key finds an element exactly if the element is there and has the
key. -/
theorem find?_eq_some_iff {key : α → κ} {l : List α} (nodup : (l.map key).Nodup) {k : κ} {a : α} :
    (l.find? fun x => key x = k) = some a ↔ a ∈ l ∧ key a = k := by
  induction l with
  | nil => simp
  | cons x l ih =>
    rw [List.map_cons, List.nodup_cons] at nodup
    rw [List.find?_cons]
    by_cases hx : key x = k
    · subst hx
      simp only [decide_true, Option.some.injEq, List.mem_cons]
      constructor
      · rintro rfl
        exact ⟨.inl rfl, rfl⟩
      · intro h
        obtain ⟨rfl | mem, same⟩ := h
        · rfl
        · exact absurd (List.mem_map.mpr ⟨a, mem, same⟩) nodup.1
    · simp only [hx, decide_false, ih nodup.2, List.mem_cons]
      constructor
      · intro h
        obtain ⟨mem, rfl⟩ := h
        exact ⟨.inr mem, rfl⟩
      · intro h
        obtain ⟨rfl | mem, same⟩ := h
        · exact absurd same hx
        · exact ⟨mem, same⟩

/-- Looking up a key finds nothing exactly if no element has it. -/
theorem find?_eq_none_iff {key : α → κ} {l : List α} {k : κ} :
    (l.find? fun x => key x = k) = none ↔ k ∉ l.map key := by
  simp only [List.find?_eq_none, decide_eq_true_eq, List.mem_map, not_exists, not_and]

/-- Where keys are distinct, no other element has the key of an element. -/
theorem filter_eq_singleton {key : α → κ} {l : List α} (nodup : (l.map key).Nodup) {a : α}
    (ha : a ∈ l) : (l.filter fun x => key x = key a) = [a] := by
  induction l with
  | nil => exact absurd ha List.not_mem_nil
  | cons x l ih =>
    obtain ⟨fresh, nodup⟩ := List.nodup_cons.mp nodup
    rcases List.mem_cons.mp ha with rfl | mem
    · have others : (l.filter fun x => key x = key a) = [] := by
        refine List.filter_eq_nil_iff.mpr fun x hx same => fresh ?_
        exact List.mem_map.mpr ⟨x, hx, of_decide_eq_true same⟩
      rw [List.filter_cons, others]
      simp
    · have different : ¬ key x = key a := fun same => fresh (List.mem_map.mpr ⟨a, mem, same.symm⟩)
      rw [List.filter_cons_of_neg (by simpa using different), ih nodup mem]

/-- Where keys are distinct, the order of the list has no say in what a key finds. -/
theorem filter_eq_of_perm {key : α → κ} {l l' : List α} (nodup : (l.map key).Nodup)
    (perm : l.Perm l') (k : κ) :
    (l.filter fun x => key x = k) = l'.filter fun x => key x = k := by
  by_cases known : ∃ a ∈ l, key a = k
  · obtain ⟨a, mem, rfl⟩ := known
    have nodup' : (l'.map key).Nodup := (perm.map key).nodup_iff.mp nodup
    rw [filter_eq_singleton nodup mem, filter_eq_singleton nodup' (perm.mem_iff.mp mem)]
  · have none : (l.filter fun x => key x = k) = [] :=
      List.filter_eq_nil_iff.mpr fun a mem same => known ⟨a, mem, of_decide_eq_true same⟩
    have none' := perm.filter fun x => key x = k
    rw [none] at none'
    rw [none, none'.nil_eq]

/-- What all elements give rise to, each under its own key, holds at one key what the
element of that key gives rise to. -/
theorem filter_flatMap_eq {key : α → κ} {key' : β → κ} {f : α → List β} {l : List α}
    (nodup : (l.map key).Nodup) (keyed : ∀ x ∈ l, ∀ y ∈ f x, key' y = key x) {a : α} (ha : a ∈ l) :
    ((l.flatMap f).filter fun y => key' y = key a) = f a := by
  rw [filter_flatMap keyed fun k => k = key a, filter_eq_singleton nodup ha,
    List.flatMap_singleton]

end ApiDrift.Keyed
