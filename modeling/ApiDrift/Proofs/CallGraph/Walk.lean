import Mathlib.Data.Nat.Find

set_option autoImplicit false

/-!
# Walks and distances

A walk follows links from one vertex to another and may pass a vertex more than
once.  The distance from a vertex to another is the number of links of a shortest
walk.  Both are stated for any relation, so that they can be read along the links
of a graph and against them; they know nothing of how a graph is searched.
-/

namespace ApiDrift

variable {α : Type} {link : α → α → Prop}

/-- `Walk link n u v` says that some `n` links in a row lead from `u` to `v`. -/
inductive Walk (link : α → α → Prop) : Nat → α → α → Prop where
  | nil (v : α) : Walk link 0 v v
  | cons {n : Nat} {u w v : α} (first : link u w) (rest : Walk link n w v) :
      Walk link (n + 1) u v

namespace Walk

theorem eq_of_zero {u v : α} (h : Walk link 0 u v) : u = v := by
  cases h
  rfl

theorem append {m n : Nat} {u v w : α} (h : Walk link m u v) (h' : Walk link n v w) :
    Walk link (m + n) u w := by
  induction h with
  | nil v => simpa using h'
  | @cons m u x v first rest ih =>
    have hlong : Walk link (m + n + 1) u w := .cons first (ih h')
    simpa only [Nat.add_right_comm] using hlong

theorem snoc {n : Nat} {u v w : α} (h : Walk link n u v) (last : link v w) :
    Walk link (n + 1) u w :=
  h.append (.cons last (.nil w))

/-- A walk of at least one link can be taken apart at its last link. -/
theorem exists_last {n : Nat} {u w : α} (h : Walk link (n + 1) u w) :
    ∃ v, Walk link n u v ∧ link v w := by
  induction n generalizing u with
  | zero =>
    cases h with
    | cons first rest =>
      cases rest.eq_of_zero
      exact ⟨u, .nil u, first⟩
  | succ n ih =>
    cases h with
    | cons first rest =>
      obtain ⟨v, hv, last⟩ := ih rest
      exact ⟨v, .cons first hv, last⟩

/-- A walk needs no links but its own. -/
theorem mono {link' : α → α → Prop} (hlinks : ∀ u v, link u v → link' u v) {n : Nat} {u v : α}
    (h : Walk link n u v) : Walk link' n u v := by
  induction h with
  | nil v => exact .nil v
  | cons first rest ih => exact .cons (hlinks _ _ first) ih

/-- Against the links a walk runs the other way. -/
theorem reverse {n : Nat} {u v : α} (h : Walk link n u v) : Walk (flip link) n v u := by
  induction h with
  | nil v => exact .nil v
  | cons first rest ih => exact ih.snoc first

end Walk

theorem walk_flip_iff {n : Nat} {u v : α} : Walk (flip link) n v u ↔ Walk link n u v :=
  ⟨fun h => h.reverse, fun h => h.reverse⟩

/-! ## Distances -/

/-- `IsDistance link n u v` says that a shortest walk from `u` to `v` has `n`
links. -/
def IsDistance (link : α → α → Prop) (n : Nat) (u v : α) : Prop :=
  Walk link n u v ∧ ∀ m < n, ¬ Walk link m u v

theorem isDistance_flip_iff {n : Nat} {u v : α} :
    IsDistance (flip link) n v u ↔ IsDistance link n u v := by
  simp only [IsDistance, walk_flip_iff]

theorem isDistance_zero_iff {u v : α} : IsDistance link 0 u v ↔ u = v := by
  constructor
  · exact fun h => h.1.eq_of_zero
  · rintro rfl
    exact ⟨.nil u, fun m hm => absurd hm (Nat.not_lt_zero m)⟩

theorem isDistance_one_iff {u v : α} : IsDistance link 1 u v ↔ link u v ∧ u ≠ v := by
  constructor
  · intro h
    obtain ⟨hwalk, hleast⟩ := h
    obtain ⟨w, hzero, last⟩ := hwalk.exists_last
    cases hzero.eq_of_zero
    refine ⟨last, fun same => hleast 0 Nat.one_pos ?_⟩
    exact same ▸ Walk.nil u
  · intro h
    obtain ⟨hlink, different⟩ := h
    refine ⟨.cons hlink (.nil v), fun m hm hwalk => different ?_⟩
    cases Nat.lt_one_iff.mp hm
    exact hwalk.eq_of_zero

namespace IsDistance

/-- Two vertices have one distance at most. -/
theorem unique {m n : Nat} {u v : α} (h : IsDistance link m u v) (h' : IsDistance link n u v) :
    m = n := by
  rcases Nat.lt_trichotomy m n with hlt | heq | hgt
  · exact absurd h.1 (h'.2 m hlt)
  · exact heq
  · exact absurd h'.1 (h.2 n hgt)

/-- On a shortest walk the vertex before the last one is one link nearer. -/
theorem exists_previous {n : Nat} {u w : α} (h : IsDistance link (n + 1) u w) :
    ∃ v, IsDistance link n u v ∧ link v w := by
  obtain ⟨v, hwalk, last⟩ := h.1.exists_last
  refine ⟨v, ⟨hwalk, fun m hm shorter => ?_⟩, last⟩
  exact h.2 (m + 1) (Nat.succ_lt_succ hm) (shorter.snoc last)

/-- Every smaller distance occurs on the way to a vertex. -/
theorem exists_of_le {m n : Nat} {u w : α} (h : IsDistance link n u w) (hle : m ≤ n) :
    ∃ v, IsDistance link m u v := by
  induction n generalizing w with
  | zero => exact ⟨w, Nat.le_zero.mp hle ▸ h⟩
  | succ n ih =>
    rcases Nat.lt_or_ge n m with hlt | hge
    · have hsame : m = n + 1 := by omega
      exact ⟨w, hsame ▸ h⟩
    · obtain ⟨v, hv, _⟩ := h.exists_previous
      exact ih hv hge

end IsDistance

/-- A walk is at least as long as the distance. -/
theorem Walk.exists_isDistance_le {n : Nat} {u v : α} (h : Walk link n u v) :
    ∃ k ≤ n, IsDistance link k u v := by
  classical
  have hexists : ∃ k, Walk link k u v := ⟨n, h⟩
  refine ⟨Nat.find hexists, Nat.find_min' hexists h, Nat.find_spec hexists, fun m hm => ?_⟩
  exact Nat.find_min hexists hm

/-- Where there is a walk there is a distance. -/
theorem exists_isDistance_iff {u v : α} :
    (∃ n, IsDistance link n u v) ↔ ∃ n, Walk link n u v := by
  constructor
  · intro h
    obtain ⟨n, h⟩ := h
    exact ⟨n, h.1⟩
  · intro h
    obtain ⟨n, h⟩ := h
    obtain ⟨k, _, hk⟩ := h.exists_isDistance_le
    exact ⟨k, hk⟩

end ApiDrift
