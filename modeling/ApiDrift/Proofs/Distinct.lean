import Mathlib.Data.List.Induction
import Mathlib.Data.List.Nodup

set_option autoImplicit false

/-!
# Lists in order of first occurrence

Maps and graphs keep what comes in at the place where it first came in.  The order that
this leaves behind is that of the whole input with the repetitions taken out, and it
passes on to the parts of the input and to what is read off its elements.
-/

namespace ApiDrift

variable {α β : Type} {l : List α}

/-! ## Taking elements in -/

/-- A list with one more element, which goes to the end if it is new. -/
def addNew [DecidableEq α] (l : List α) (a : α) : List α := if a ∈ l then l else l ++ [a]

theorem addNew_nodup [DecidableEq α] (h : l.Nodup) (a : α) : (addNew l a).Nodup := by
  unfold addNew
  split
  · exact h
  · rename_i hfresh
    exact List.nodup_append.mpr ⟨h, List.nodup_singleton a, fun b hb c hc same =>
      hfresh (by rwa [← List.mem_singleton.mp hc, ← same])⟩

/-! ## Lists without repetition -/

/-- In a list without repetition elements stand in the order of their places. -/
theorem pairwise_idxOf_lt [BEq α] [LawfulBEq α] (h : l.Nodup) :
    l.Pairwise fun a b => l.idxOf a < l.idxOf b := by
  refine List.pairwise_iff_getElem.mpr fun i j hi hj hlt => ?_
  rw [h.idxOf_getElem i hi, h.idxOf_getElem j hj]
  exact hlt

/-- If one list turns into another by what is added and what is removed, each side of the
exchange holds as much as the other. -/
theorem length_add_length_of_exchange {l' added removed : List α} (h : l.Nodup) (h' : l'.Nodup)
    (hadded : added.Nodup) (hremoved : removed.Nodup)
    (mem_added : ∀ a, a ∈ added ↔ a ∉ l ∧ a ∈ l')
    (mem_removed : ∀ a, a ∈ removed ↔ a ∈ l ∧ a ∉ l') :
    l.length + added.length = l'.length + removed.length := by
  have hleft : (l ++ added).Nodup := List.nodup_append.mpr ⟨h, hadded, fun a ha b hb same =>
    ((mem_added b).mp hb).1 (same ▸ ha)⟩
  have hright : (l' ++ removed).Nodup := List.nodup_append.mpr ⟨h', hremoved, fun a ha b hb same =>
    ((mem_removed b).mp hb).2 (same ▸ ha)⟩
  have hperm : (l ++ added).Perm (l' ++ removed) := by
    refine (List.perm_ext_iff_of_nodup hleft hright).mpr fun a => ?_
    rw [List.mem_append, List.mem_append, mem_added, mem_removed]
    by_cases hold : a ∈ l <;> by_cases hnew : a ∈ l' <;> simp [hold, hnew]
  rw [← List.length_append, ← List.length_append, hperm.length_eq]

/-! ## Lists without their repetitions -/

variable [BEq α] [LawfulBEq α] [BEq β] [LawfulBEq β]

theorem eraseDups_of_nodup (h : l.Nodup) : l.eraseDups = l := by
  induction l with
  | nil => rfl
  | cons a l ih =>
    obtain ⟨hfresh, hrest⟩ := List.nodup_cons.mp h
    have hfilter : (l.filter fun b => !b == a) = l := by
      refine List.filter_eq_self.mpr fun b hb => ?_
      have hne : b ≠ a := fun same => hfresh (same ▸ hb)
      simp [hne]
    rw [List.eraseDups_cons, hfilter, ih hrest]

theorem eraseDups_nodup (l : List α) : l.eraseDups.Nodup := by
  cases l with
  | nil => exact List.nodup_nil
  | cons a l =>
    rw [List.eraseDups_cons, List.nodup_cons]
    refine ⟨fun hmem => ?_, eraseDups_nodup _⟩
    have hother := (List.mem_filter.mp (List.mem_eraseDups.mp hmem)).2
    simp at hother
termination_by l.length
decreasing_by exact Nat.lt_succ_of_le (List.length_filter_le _ _)

theorem eraseDups_append_of_subset {l' : List α} (h : l' ⊆ l) :
    (l ++ l').eraseDups = l.eraseDups := by
  have hknown : l'.removeAll l = [] := by
    refine List.filter_eq_nil_iff.mpr fun a ha => ?_
    simpa using h ha
  rw [List.eraseDups_append, hknown, List.eraseDups_nil, List.append_nil]

theorem prefix_eraseDups {l' : List α} (h : l <+: l') : l.eraseDups <+: l'.eraseDups := by
  obtain ⟨rest, rfl⟩ := h
  rw [List.eraseDups_append]
  exact List.prefix_append _ _

theorem eraseDups_eraseDups_append (l l' : List α) :
    (l.eraseDups ++ l').eraseDups = (l ++ l').eraseDups := by
  have hrest : l'.removeAll l.eraseDups = l'.removeAll l := by
    refine List.filter_congr fun a _ => ?_
    by_cases hmem : a ∈ l <;> simp [hmem]
  rw [List.eraseDups_append, List.eraseDups_append, eraseDups_of_nodup (eraseDups_nodup l), hrest]

theorem eraseDups_concat_of_not_mem {a : α} (h : a ∉ l) :
    (l ++ [a]).eraseDups = l.eraseDups ++ [a] := by
  have hfresh : [a].removeAll l = [a] := by
    refine List.filter_eq_self.mpr fun b hb => ?_
    rw [List.mem_singleton.mp hb]
    simpa using h
  rw [List.eraseDups_append, hfresh]
  rfl

/-- The repetitions can be taken out before a part is chosen or after it. -/
theorem filter_eraseDups (p : α → Bool) (l : List α) :
    l.eraseDups.filter p = (l.filter p).eraseDups := by
  -- from the end: a last element is known and drops out, or is new and stays last
  induction l using List.reverseRecOn with
  | nil => rfl
  | append_singleton l a ih =>
    by_cases hmem : a ∈ l
    · have hpart : [a].filter p ⊆ l.filter p := List.filter_subset p (by simpa using hmem)
      rw [eraseDups_append_of_subset (by simpa using hmem), ih, List.filter_append,
        eraseDups_append_of_subset hpart]
    · rw [eraseDups_concat_of_not_mem hmem, List.filter_append, List.filter_append, ih]
      cases hp : p a with
      | false => simp [hp]
      | true =>
        have hfresh : a ∉ l.filter p := fun h => hmem (List.mem_of_mem_filter h)
        simp [hp, eraseDups_concat_of_not_mem hfresh]

/-- What tells the elements of a list apart keeps their order of first occurrence. -/
theorem map_eraseDups {f : α → β} (h : ∀ a ∈ l, ∀ b ∈ l, f a = f b → a = b) :
    l.eraseDups.map f = (l.map f).eraseDups := by
  induction l using List.reverseRecOn with
  | nil => rfl
  | append_singleton l a ih =>
    have hrest := ih fun b hb c hc =>
      h b (List.mem_append_left _ hb) c (List.mem_append_left _ hc)
    by_cases hmem : a ∈ l
    · have himage : [a].map f ⊆ l.map f := List.map_subset f (by simpa using hmem)
      rw [eraseDups_append_of_subset (by simpa using hmem), hrest, List.map_append,
        eraseDups_append_of_subset himage]
    · have hfresh : f a ∉ l.map f := by
        intro himage
        obtain ⟨b, hb, hsame⟩ := List.mem_map.mp himage
        have heq : b = a := h b (List.mem_append_left _ hb) a (by simp) hsame
        exact hmem (heq ▸ hb)
      rw [eraseDups_concat_of_not_mem hmem, List.map_append, List.map_append, hrest]
      exact (eraseDups_concat_of_not_mem hfresh).symm

/-- What is read off the elements of one key keeps their order of first occurrence, if it
tells elements of one key apart. -/
theorem map_filter_eraseDups {κ : Type} [DecidableEq κ] {key : α → κ} {f : α → β}
    (h : ∀ a b, key a = key b → f a = f b → a = b) (k : κ) (l : List α) :
    (l.eraseDups.filter fun a => key a = k).map f =
      ((l.filter fun a => key a = k).map f).eraseDups := by
  rw [filter_eraseDups]
  refine map_eraseDups fun a ha b hb hsame => h a b ?_ hsame
  have hkey := of_decide_eq_true (List.mem_filter.mp ha).2
  have hkey' := of_decide_eq_true (List.mem_filter.mp hb).2
  exact hkey.trans hkey'.symm

theorem eraseDups_append_eraseDups (l l' : List α) :
    (l ++ l'.eraseDups).eraseDups = (l ++ l').eraseDups := by
  have hrest : (l'.eraseDups.removeAll l).eraseDups = (l'.removeAll l).eraseDups := by
    rw [List.removeAll, filter_eraseDups, eraseDups_of_nodup (eraseDups_nodup _)]
    rfl
  rw [List.eraseDups_append, List.eraseDups_append, hrest]

/-- The repetitions can be taken out of each part of a list before the parts are put together. -/
theorem eraseDups_flatMap_congr {ι : Type} {parts : List ι} {f g : ι → List α}
    (h : ∀ i ∈ parts, (f i).eraseDups = (g i).eraseDups) :
    (parts.flatMap f).eraseDups = (parts.flatMap g).eraseDups := by
  induction parts with
  | nil => rfl
  | cons i parts ih =>
    obtain ⟨hfirst, hrest⟩ := List.forall_mem_cons.mp h
    rw [List.flatMap_cons, List.flatMap_cons, ← eraseDups_eraseDups_append,
      ← eraseDups_append_eraseDups, hfirst, ih hrest, eraseDups_append_eraseDups,
      eraseDups_eraseDups_append]

theorem eraseDups_addNew_append [DecidableEq α] (l l' : List α) (a : α) :
    (addNew l a ++ l').eraseDups = (l ++ a :: l').eraseDups := by
  by_cases hmem : a ∈ l
  · have hsame : l'.removeAll (l ++ [a]) = l'.removeAll l := by
      refine List.filter_congr fun b _ => ?_
      by_cases hb : b = a <;> simp [hb, hmem]
    rw [addNew, if_pos hmem]
    calc (l ++ l').eraseDups = l.eraseDups ++ (l'.removeAll l).eraseDups := List.eraseDups_append
      _ = (l ++ [a]).eraseDups ++ (l'.removeAll (l ++ [a])).eraseDups := by
        rw [hsame, eraseDups_append_of_subset (by simpa using hmem)]
      _ = (l ++ [a] ++ l').eraseDups := List.eraseDups_append.symm
      _ = (l ++ a :: l').eraseDups := by rw [← List.append_cons]
  · rw [addNew, if_neg hmem, ← List.append_cons]

/-- Taking elements in one by one leaves each at its first place. -/
theorem foldl_addNew [DecidableEq α] (h : l.Nodup) (l' : List α) :
    l'.foldl addNew l = (l ++ l').eraseDups := by
  induction l' generalizing l with
  | nil => rw [List.foldl_nil, List.append_nil, eraseDups_of_nodup h]
  | cons a l' ih => rw [List.foldl_cons, ih (addNew_nodup h a), eraseDups_addNew_append]

/-- If every step of a run takes one element into a view of the state, the view of the
last state holds all elements, each at its first place. -/
theorem view_foldl [DecidableEq α] {σ ι : Type} (view : σ → List α) (step : σ → ι → σ)
    (element : ι → α) (hstep : ∀ s x, view (step s x) = addNew (view s) (element x)) (s : σ)
    (hs : (view s).Nodup) (xs : List ι) :
    view (xs.foldl step s) = (view s ++ xs.map element).eraseDups := by
  rw [← foldl_addNew hs, List.foldl_map]
  exact (List.foldl_hom view fun s x => (hstep s x).symm).symm

end ApiDrift
