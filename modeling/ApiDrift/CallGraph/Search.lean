import ApiDrift.CallGraph.Digraph
import Std.Data.TreeMap
import Std.Data.TreeSet

set_option autoImplicit false

/-!
# Breadth-first search

A search goes outwards layer by layer.  It keeps the set of the vertices that it
has not come to yet; every layer takes some of them away, so the search ends
however the links run.  Within a layer the vertices stand in the order in which
they were first come to.
-/

namespace ApiDrift

open Std

/-! ## One layer -/

/-- Takes candidates out of a set one by one.  The result is the candidates that
were in the set, each at its first place, and what is left of the set. -/
def sweep : List String → TreeSet String → List String × TreeSet String
  | [], unvisited => ([], unvisited)
  | v :: rest, unvisited =>
    if v ∈ unvisited then
      let (fresh, left) := sweep rest (unvisited.erase v)
      (v :: fresh, left)
    else sweep rest unvisited

theorem mem_erase_iff {unvisited : TreeSet String} {v w : String} :
    w ∈ unvisited.erase v ↔ w ≠ v ∧ w ∈ unvisited := by
  rw [TreeSet.mem_erase, ne_eq, LawfulEqOrd.compare_eq_iff_eq]
  exact ⟨fun h => ⟨fun e => h.1 e.symm, h.2⟩, fun h => ⟨fun e => h.1 e.symm, h.2⟩⟩

theorem mem_sweep_iff {candidates : List String} {unvisited : TreeSet String} {w : String} :
    w ∈ (sweep candidates unvisited).1 ↔ w ∈ candidates ∧ w ∈ unvisited := by
  induction candidates generalizing unvisited with
  | nil => simp [sweep]
  | cons v rest ih =>
    rw [sweep]
    split
    · rename_i found
      simp only [List.mem_cons, ih, mem_erase_iff]
      by_cases same : w = v
      · subst same
        simp [found]
      · simp [same]
    · rename_i missing
      rw [ih, List.mem_cons]
      constructor
      · exact fun h => ⟨.inr h.1, h.2⟩
      · intro h
        obtain ⟨rfl | mem, h⟩ := h
        · exact absurd h missing
        · exact ⟨mem, h⟩

theorem mem_left_iff {candidates : List String} {unvisited : TreeSet String} {w : String} :
    w ∈ (sweep candidates unvisited).2 ↔ w ∈ unvisited ∧ w ∉ candidates := by
  induction candidates generalizing unvisited with
  | nil => simp [sweep]
  | cons v rest ih =>
    rw [sweep]
    split
    · simp only [ih, mem_erase_iff, List.mem_cons, not_or]
      constructor
      · exact fun h => ⟨h.1.2, h.1.1, h.2⟩
      · exact fun h => ⟨⟨h.2.1, h.1⟩, h.2.2⟩
    · rename_i missing
      rw [ih, List.mem_cons, not_or]
      constructor
      · intro h
        obtain ⟨mem, h⟩ := h
        exact ⟨mem, fun same => missing (same ▸ mem), h⟩
      · exact fun h => ⟨h.1, h.2.2⟩

theorem sweep_nodup (candidates : List String) (unvisited : TreeSet String) :
    (sweep candidates unvisited).1.Nodup := by
  induction candidates generalizing unvisited with
  | nil => simp [sweep]
  | cons v rest ih =>
    rw [sweep]
    split
    · refine List.nodup_cons.mpr ⟨fun mem => ?_, ih _⟩
      exact (mem_erase_iff.mp (mem_sweep_iff.mp mem).2).1 rfl
    · exact ih _

theorem size_erase_add_one {unvisited : TreeSet String} {v : String} (found : v ∈ unvisited) :
    (unvisited.erase v).size + 1 = unvisited.size := by
  have positive : unvisited.size ≠ 0 := by
    have occupied : unvisited.isEmpty = false := TreeSet.isEmpty_eq_false_of_contains found
    rw [TreeSet.isEmpty_eq_size_eq_zero, beq_eq_false_iff_ne] at occupied
    exact occupied
  rw [TreeSet.size_erase, if_pos (TreeSet.mem_iff_contains.mp found)]
  omega

/-- What is taken out and what is left make up the set. -/
theorem size_left_add_length (candidates : List String) (unvisited : TreeSet String) :
    (sweep candidates unvisited).2.size + (sweep candidates unvisited).1.length =
      unvisited.size := by
  induction candidates generalizing unvisited with
  | nil => rfl
  | cons v rest ih =>
    rw [sweep]
    split
    · rename_i found
      rw [List.length_cons, ← size_erase_add_one found, ← ih (unvisited.erase v), Nat.add_assoc]
    · exact ih _

theorem size_left_lt {candidates : List String} {unvisited : TreeSet String}
    (h : (sweep candidates unvisited).1 ≠ []) :
    (sweep candidates unvisited).2.size < unvisited.size := by
  have total := size_left_add_length candidates unvisited
  have positive := List.length_pos_iff.mpr h
  omega

/-! ## All layers -/

/-- The layers of a search beyond a given layer, nearest first. -/
def layersBeyond (next : String → List String) (unvisited : TreeSet String)
    (layer : List String) : List (List String) :=
  let step := sweep (layer.flatMap next) unvisited
  if _h : step.1 = [] then []
  else step.1 :: layersBeyond next step.2 step.1
termination_by unvisited.size
decreasing_by exact size_left_lt _h

namespace Digraph

variable {ρ : Type}

/-! ## Neighbour tables -/

/-- The second ends of links by their first ends, each list in link order. -/
def tableOf (links : List (String × String)) : TreeMap String (List String) :=
  links.foldr (fun link table => table.insert link.1 (link.2 :: table.getD link.1 [])) ∅

theorem getD_tableOf (links : List (String × String)) (v : String) :
    (tableOf links).getD v [] = (links.filter fun link => link.1 = v).map Prod.snd := by
  induction links with
  | nil => simp [tableOf]
  | cons link rest ih =>
    rw [tableOf] at ih
    rw [tableOf, List.foldr_cons, TreeMap.getD_insert, List.filter_cons]
    by_cases same : link.1 = v
    · subst same
      simp [ih]
    · simp [same, ih]

/-- The callees of every vertex. -/
def calleeTable (g : Digraph ρ) : TreeMap String (List String) := tableOf g.links.keys

/-- The callers of every vertex. -/
def callerTable (g : Digraph ρ) : TreeMap String (List String) :=
  tableOf (g.links.keys.map fun link => (link.2, link.1))

theorem getD_calleeTable (g : Digraph ρ) (v : String) : g.calleeTable.getD v [] = g.callees v :=
  getD_tableOf _ _

theorem getD_callerTable (g : Digraph ρ) (v : String) : g.callerTable.getD v [] = g.callers v := by
  rw [callerTable, getD_tableOf, callers, List.filter_map, List.map_map]
  rfl

/-- The vertices as a set. -/
def vertexSet (g : Digraph ρ) : TreeSet String := .ofList g.vertices

theorem mem_vertexSet_iff {g : Digraph ρ} {v : String} : v ∈ g.vertexSet ↔ v ∈ g.vertices := by
  rw [vertexSet, TreeSet.mem_ofList, List.contains_iff_mem]

/-! ## Layers of callers -/

/-- The layers of callers beyond a layer of direct callers, as far as a limit on
the number of steps allows.  The direct callers are the first step. -/
def callerLayers (g : Digraph ρ) (limit : Option Nat) (v : String) (direct : List String) :
    List (List String) :=
  let table := g.callerTable
  let layers := layersBeyond (fun u => table.getD u []) (sweep (v :: direct) g.vertexSet).2 direct
  match limit with
  | none => layers
  | some steps => layers.take (steps - 1)

end Digraph

end ApiDrift
