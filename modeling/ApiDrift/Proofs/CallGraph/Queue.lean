import ApiDrift.Proofs.CallGraph.Layers
import Mathlib.Data.List.Infix

set_option autoImplicit false

/-!
# A search with a queue

Instead of layer by layer a search can go vertex by vertex.  Vertices wait in a queue, each
with the number of steps it is away; the front one is passed over if that reaches a limit,
and otherwise the unvisited vertices next to it join the queue at its end.  While the
vertices of one layer leave the queue those of the next one gather behind them, so a search
with a queue comes to the vertices of the layers in their order, as far as the limit
allows.
-/

namespace ApiDrift

open Std

variable {next : String → List String} {limit limit' : Option Nat} {unvisited : TreeSet String}
  {layer : List String} {steps : Nat}

/-! ## The queue -/

/-- Whether a limit on the number of steps is reached. -/
def isReached (limit : Option Nat) (steps : Nat) : Bool := limit.any (· ≤ steps)

/-- The vertices that a search comes to from a queue, each vertex of which is some steps
away. -/
def discoveries (next : String → List String) (limit : Option Nat) (unvisited : TreeSet String) :
    List (String × Nat) → List String
  | [] => []
  | (v, steps) :: rest =>
    if isReached limit steps then discoveries next limit unvisited rest
    else
      let found := sweep (next v) unvisited
      found.1 ++ discoveries next limit found.2 (rest ++ found.1.map fun w => (w, steps + 1))
-- a vertex joins the queue when it leaves the set, and then leaves the queue
termination_by queue => unvisited.size + queue.length
decreasing_by
  · simp only [List.length_cons]
    omega
  · have hsize := size_left_add_length (next v) unvisited
    simp only [List.length_append, List.length_map, List.length_cons]
    omega

theorem discoveries_nil : discoveries next limit unvisited [] = [] := by
  rw [discoveries]

/-- A vertex that the limit leaves out is only taken from the queue. -/
theorem discoveries_cons_of_reached (h : isReached limit steps = true) (v : String)
    (rest : List (String × Nat)) :
    discoveries next limit unvisited ((v, steps) :: rest) =
      discoveries next limit unvisited rest := by
  rw [discoveries, if_pos h]

/-- The unvisited vertices next to the front of the queue are come to and join its end. -/
theorem discoveries_cons (h : isReached limit steps = false) (v : String)
    (rest : List (String × Nat)) :
    discoveries next limit unvisited ((v, steps) :: rest) =
      (sweep (next v) unvisited).1 ++
        discoveries next limit (sweep (next v) unvisited).2
          (rest ++ (sweep (next v) unvisited).1.map fun w => (w, steps + 1)) := by
  rw [discoveries, if_neg (by simp [h])]

theorem discoveries_of_reached {queue : List (String × Nat)}
    (h : ∀ entry ∈ queue, isReached limit entry.2 = true) :
    discoveries next limit unvisited queue = [] := by
  induction queue with
  | nil => exact discoveries_nil
  | cons entry rest ih =>
    obtain ⟨hfront, hrest⟩ := List.forall_mem_cons.mp h
    rw [discoveries_cons_of_reached hfront]
    exact ih hrest

/-! ## One layer -/

theorem sweep_append (candidates candidates' : List String) (unvisited : TreeSet String) :
    sweep (candidates ++ candidates') unvisited =
      ((sweep candidates unvisited).1 ++ (sweep candidates' (sweep candidates unvisited).2).1,
        (sweep candidates' (sweep candidates unvisited).2).2) := by
  induction candidates generalizing unvisited with
  | nil => rfl
  | cons v rest ih =>
    rw [List.cons_append, sweep, sweep]
    split
    · rw [ih]
      rfl
    · exact ih _

/-- When a layer has left the queue, the next one stands at its end. -/
theorem discoveries_layer_append (hwithin : isReached limit steps = false)
    (waiting : List (String × Nat)) :
    discoveries next limit unvisited (layer.map (fun v => (v, steps)) ++ waiting) =
      (sweep (layer.flatMap next) unvisited).1 ++
        discoveries next limit (sweep (layer.flatMap next) unvisited).2
          (waiting ++
            (sweep (layer.flatMap next) unvisited).1.map fun w => (w, steps + 1)) := by
  induction layer generalizing unvisited waiting with
  | nil => simp [sweep]
  | cons v layer ih =>
    rw [List.map_cons, List.cons_append, discoveries_cons hwithin, List.append_assoc, ih,
      List.flatMap_cons, sweep_append, List.map_append, List.append_assoc, List.append_assoc]

theorem discoveries_layer (hwithin : isReached limit steps = false) (next : String → List String)
    (unvisited : TreeSet String) (layer : List String) :
    discoveries next limit unvisited (layer.map fun v => (v, steps)) =
      (sweep (layer.flatMap next) unvisited).1 ++
        discoveries next limit (sweep (layer.flatMap next) unvisited).2
          ((sweep (layer.flatMap next) unvisited).1.map fun w => (w, steps + 1)) := by
  simpa only [List.append_nil, List.nil_append] using discoveries_layer_append hwithin []

/-! ## All layers -/

/-- The layers that a limit allows, the first one of which is a step farther than the given
number. -/
def layersWithin (limit : Option Nat) (steps : Nat) (layers : List (List String)) :
    List (List String) :=
  match limit with
  | none => layers
  | some most => layers.take (most - steps)

theorem layersWithin_nil (limit : Option Nat) (steps : Nat) : layersWithin limit steps [] = [] := by
  cases limit <;> simp [layersWithin]

theorem layersWithin_of_reached (h : isReached limit steps = true) (layers : List (List String)) :
    layersWithin limit steps layers = [] := by
  cases limit with
  | none => simp [isReached] at h
  | some most =>
    have hle : most ≤ steps := by simpa [isReached] using h
    rw [layersWithin, Nat.sub_eq_zero_of_le hle, List.take_zero]

theorem layersWithin_cons (h : isReached limit steps = false) (layers : List (List String)) :
    layersWithin limit steps (layer :: layers) =
      layer :: layersWithin limit (steps + 1) layers := by
  cases limit with
  | none => rfl
  | some most =>
    have hlt : steps < most := by simpa [isReached] using h
    have hmost : most - steps = most - (steps + 1) + 1 := by omega
    rw [layersWithin, layersWithin, hmost, List.take_succ_cons]

/-- A search with a queue comes to the vertices of the layers that the limit allows, layer by
layer. -/
theorem discoveries_eq_flatten (next : String → List String) (limit : Option Nat)
    (unvisited : TreeSet String) (layer : List String) (steps : Nat) :
    discoveries next limit unvisited (layer.map fun v => (v, steps)) =
      (layersWithin limit steps (layersBeyond next unvisited layer)).flatten := by
  cases hreached : isReached limit steps with
  | true =>
    rw [layersWithin_of_reached hreached, List.flatten_nil]
    refine discoveries_of_reached fun entry hentry => ?_
    obtain ⟨v, _, rfl⟩ := List.mem_map.mp hentry
    exact hreached
  | false =>
    rw [discoveries_layer hreached, layersBeyond_eq]
    split
    · rename_i hnone
      rw [hnone, List.map_nil, discoveries_nil, layersWithin_nil]
      rfl
    · rename_i hsome
      rw [layersWithin_cons hreached, List.flatten_cons,
        discoveries_eq_flatten next limit _ _ (steps + 1)]
termination_by unvisited.size
decreasing_by exact size_left_lt (by assumption)

/-! ## Farther limits -/

/-- A limit is no farther than another one; without a limit a search goes as far as there are
vertices. -/
def NoFarther (limit limit' : Option Nat) : Prop :=
  ∀ most' ∈ limit', ∃ most ∈ limit, most ≤ most'

theorem layersWithin_prefix_of_noFarther (h : NoFarther limit limit') (steps : Nat)
    (layers : List (List String)) :
    layersWithin limit steps layers <+: layersWithin limit' steps layers := by
  cases limit' with
  | none =>
    cases limit with
    | none => exact List.prefix_refl _
    | some most => exact List.take_prefix _ _
  | some most' =>
    obtain ⟨most, hmost, hle⟩ := h most' rfl
    cases hmost
    exact List.take_prefix_take_left (Nat.sub_le_sub_right hle steps)

/-- What a search comes to under a limit is what it comes to first under a farther one. -/
theorem discoveries_prefix_of_noFarther (h : NoFarther limit limit')
    (next : String → List String) (unvisited : TreeSet String) (layer : List String)
    (steps : Nat) :
    discoveries next limit unvisited (layer.map fun v => (v, steps)) <+:
      discoveries next limit' unvisited (layer.map fun v => (v, steps)) := by
  rw [discoveries_eq_flatten, discoveries_eq_flatten]
  exact (layersWithin_prefix_of_noFarther h steps _).flatten

/-! ## Callers -/

/-- The layers of callers hold what a search with a queue comes to from the direct callers. -/
theorem Digraph.flatten_callerLayers {ρ : Type} (g : Digraph ρ) (limit : Option Nat) (v : String)
    (direct : List String) :
    (g.callerLayers limit v direct).flatten =
      discoveries g.callers limit (sweep (v :: direct) g.vertexSet).2
        (direct.map fun w => (w, 1)) := by
  have hnext : (fun u => g.callerTable.getD u []) = g.callers := funext g.getD_callerTable
  rw [discoveries_eq_flatten, ← hnext]
  cases limit <;> rfl

end ApiDrift
