import ApiDrift.CallGraph.Search
import ApiDrift.Proofs.CallGraph.Walk

set_option autoImplicit false

/-!
# The layers of a search are the distances

A breadth-first search comes to a vertex in the layer of its distance from where
the search began.  What makes this true is the frontier: the last layer holds
the vertices at one distance, and of the vertices that links lead to those are
still unvisited which are farther away.  One layer takes a frontier to the next.
-/

namespace ApiDrift

open Std

/-! ## The frontier -/

/-- The state of a search from `origin` that has come to every vertex within the
distance `depth` and to no other: `layer` holds the vertices at that distance.
Of vertices that no link leads to nothing is said; no search asks for them. -/
structure Frontier (next : String → List String) (origin : String) (depth : Nat)
    (unvisited : TreeSet String) (layer : List String) : Prop where
  mem_layer_iff : ∀ w, w ∈ layer ↔ IsDistance (fun u v => v ∈ next u) depth origin w
  mem_unvisited_iff : ∀ u, ∀ w ∈ next u,
    w ∈ unvisited ↔ ∀ m ≤ depth, ¬ Walk (fun u v => v ∈ next u) m origin w

namespace Frontier

variable {next : String → List String} {origin : String} {depth : Nat}
  {unvisited : TreeSet String} {layer : List String}

/-- What a layer newly comes to is one step farther away. -/
theorem mem_sweep_iff_isDistance (h : Frontier next origin depth unvisited layer) {w : String} :
    w ∈ (sweep (layer.flatMap next) unvisited).1 ↔
      IsDistance (fun u v => v ∈ next u) (depth + 1) origin w := by
  rw [mem_sweep_iff, List.mem_flatMap]
  constructor
  · intro hmem
    obtain ⟨⟨u, hu, hw⟩, hfresh⟩ := hmem
    refine ⟨((h.mem_layer_iff u).mp hu).1.snoc hw, fun m hm => ?_⟩
    exact (h.mem_unvisited_iff u w hw).mp hfresh m (Nat.le_of_lt_succ hm)
  · intro hdist
    obtain ⟨u, hu, hw⟩ := hdist.exists_previous
    refine ⟨⟨u, (h.mem_layer_iff u).mpr hu, hw⟩, ?_⟩
    exact (h.mem_unvisited_iff u w hw).mpr fun m hm => hdist.2 m (Nat.lt_succ_of_le hm)

/-- One layer of the search takes its frontier one step farther. -/
theorem advance (h : Frontier next origin depth unvisited layer) :
    Frontier next origin (depth + 1) (sweep (layer.flatMap next) unvisited).2
      (sweep (layer.flatMap next) unvisited).1 where
  mem_layer_iff _ := h.mem_sweep_iff_isDistance
  mem_unvisited_iff u w hw := by
    rw [mem_left_iff, h.mem_unvisited_iff u w hw]
    constructor
    · intro hleft m hm hwalk
      obtain ⟨hfar, hmissed⟩ := hleft
      rcases Nat.lt_or_ge depth m with hlt | hle
      · have hm' : m = depth + 1 := by omega
        subst hm'
        -- a first walk of this length ends in a neighbour of the layer
        have hdist : IsDistance (fun u v => v ∈ next u) (depth + 1) origin w :=
          ⟨hwalk, fun k hk => hfar k (Nat.le_of_lt_succ hk)⟩
        exact hmissed (mem_sweep_iff.mp (h.mem_sweep_iff_isDistance.mpr hdist)).1
      · exact hfar m hle hwalk
    · intro hfar
      refine ⟨fun m hm => hfar m (Nat.le_succ_of_le hm), fun hmem => ?_⟩
      obtain ⟨v, hv, hwv⟩ := List.mem_flatMap.mp hmem
      exact hfar (depth + 1) (Nat.le_refl _) (((h.mem_layer_iff v).mp hv).1.snoc hwv)

/-- The frontier lies in which vertices there are, not in how they are listed. -/
theorem congr {unvisited' : TreeSet String} {layer' : List String}
    (h : Frontier next origin depth unvisited layer) (hlayer : ∀ w, w ∈ layer' ↔ w ∈ layer)
    (hunvisited : ∀ w, w ∈ unvisited' ↔ w ∈ unvisited) :
    Frontier next origin depth unvisited' layer' where
  mem_layer_iff w := (hlayer w).trans (h.mem_layer_iff w)
  mem_unvisited_iff u w hw := (hunvisited w).trans (h.mem_unvisited_iff u w hw)

end Frontier

/-! ## All layers -/

section

variable {next : String → List String}

theorem layersBeyond_eq (unvisited : TreeSet String) (layer : List String) :
    layersBeyond next unvisited layer =
      if (sweep (layer.flatMap next) unvisited).1 = [] then []
      else (sweep (layer.flatMap next) unvisited).1 ::
        layersBeyond next (sweep (layer.flatMap next) unvisited).2
          (sweep (layer.flatMap next) unvisited).1 := by
  rw [layersBeyond]
  split <;> rfl

/-- The layer at an index holds the vertices at the distance of the index, counted
on from the frontier.  Once a layer is empty, no vertex is farther away. -/
theorem mem_layersBeyond_iff {origin : String} {unvisited : TreeSet String}
    {layer : List String} {depth : Nat} (h : Frontier next origin depth unvisited layer)
    (k : Nat) (w : String) :
    (∃ l, (layersBeyond next unvisited layer)[k]? = some l ∧ w ∈ l) ↔
      IsDistance (fun u v => v ∈ next u) (depth + 1 + k) origin w := by
  induction k generalizing unvisited layer depth with
  | zero =>
    rw [layersBeyond_eq, ← h.mem_sweep_iff_isDistance]
    split
    · rename_i hempty
      simp [hempty]
    · simp
  | succ k ih =>
    rw [layersBeyond_eq]
    split
    · rename_i hempty
      constructor
      · intro hmem
        obtain ⟨l, hl, _⟩ := hmem
        simp at hl
      · intro hdist
        obtain ⟨v, hv⟩ := hdist.exists_of_le (m := depth + 1) (by omega)
        have hmem := h.mem_sweep_iff_isDistance.mpr hv
        rw [hempty] at hmem
        simp at hmem
    · have hnext := ih h.advance
      rw [List.getElem?_cons_succ, hnext]
      have hsame : depth + 1 + 1 + k = depth + 1 + (k + 1) := by omega
      rw [hsame]

/-- The layers together hold every vertex that is farther away than the frontier. -/
theorem mem_flatten_layersBeyond_iff {origin : String} {unvisited : TreeSet String}
    {layer : List String} {depth : Nat} (h : Frontier next origin depth unvisited layer)
    (w : String) :
    w ∈ (layersBeyond next unvisited layer).flatten ↔
      ∃ n, depth < n ∧ IsDistance (fun u v => v ∈ next u) n origin w := by
  rw [List.mem_flatten]
  constructor
  · intro hmem
    obtain ⟨l, hl, hw⟩ := hmem
    obtain ⟨k, hk⟩ := List.mem_iff_getElem?.mp hl
    exact ⟨depth + 1 + k, by omega, (mem_layersBeyond_iff h k w).mp ⟨l, hk, hw⟩⟩
  · intro hfar
    obtain ⟨n, hn, hdist⟩ := hfar
    obtain ⟨k, rfl⟩ : ∃ k, n = depth + 1 + k := ⟨n - (depth + 1), by omega⟩
    obtain ⟨l, hl, hw⟩ := (mem_layersBeyond_iff h k w).mpr hdist
    exact ⟨l, List.mem_of_getElem? hl, hw⟩

theorem mem_unvisited_of_mem_layersBeyond {unvisited : TreeSet String} {layer : List String}
    {w : String} (h : w ∈ (layersBeyond next unvisited layer).flatten) : w ∈ unvisited := by
  rw [layersBeyond_eq] at h
  split at h
  · simp at h
  · rename_i hfound
    rw [List.flatten_cons, List.mem_append] at h
    rcases h with hfirst | hlater
    · exact (mem_sweep_iff.mp hfirst).2
    · exact (mem_left_iff.mp (mem_unvisited_of_mem_layersBeyond hlater)).1
termination_by unvisited.size
decreasing_by exact size_left_lt (by assumption)

/-- No vertex is come to twice. -/
theorem flatten_layersBeyond_nodup (unvisited : TreeSet String) (layer : List String) :
    (layersBeyond next unvisited layer).flatten.Nodup := by
  rw [layersBeyond_eq]
  split
  · simp
  · rename_i hfound
    rw [List.flatten_cons, List.nodup_append]
    refine ⟨sweep_nodup _ _, flatten_layersBeyond_nodup _ _, ?_⟩
    rintro w hw w' hw' rfl
    -- what a later layer comes to was left unvisited by this one
    have hleft := mem_left_iff.mp (mem_unvisited_of_mem_layersBeyond hw')
    exact hleft.2 (mem_sweep_iff.mp hw).1
termination_by unvisited.size
decreasing_by exact size_left_lt (by assumption)

/-! ## The beginning -/

/-- A search that has only begun: it is at its origin, and all else is unvisited. -/
theorem Frontier.start (next : String → List String) {vertices : TreeSet String}
    (origin : String) (hclosed : ∀ u, ∀ w ∈ next u, w ∈ vertices) :
    Frontier next origin 0 (vertices.erase origin) [origin] where
  mem_layer_iff w := by
    rw [isDistance_zero_iff, List.mem_singleton, eq_comm]
  mem_unvisited_iff u w hw := by
    rw [mem_erase_iff]
    constructor
    · intro h m hm hwalk
      obtain ⟨different, _⟩ := h
      cases Nat.le_zero.mp hm
      exact different hwalk.eq_of_zero.symm
    · intro hfar
      refine ⟨?_, hclosed u w hw⟩
      rintro rfl
      exact hfar 0 (Nat.le_refl 0) (.nil w)

end

end ApiDrift
