import ApiDrift.CallGraph.Components
import ApiDrift.Proofs.CallGraph.Layers
import Mathlib.Data.List.Nodup

set_option autoImplicit false

/-!
# Links of components are links on cycles

Two vertices are strongly connected if each leads to the other.  Vertex by vertex the
components that are found stay what they should be: without repetition, apart from
each other, and closed under strong connection.  Whatever finds such components, the
links that are read off them are those whose target leads back to their source.
-/

namespace ApiDrift

open Std

/-! ## Strong connection -/

/-- Each of two vertices leads to the other. -/
def StronglyConnected {α : Type} (link : α → α → Prop) (u v : α) : Prop :=
  (∃ n, Walk link n u v) ∧ ∃ n, Walk link n v u

namespace StronglyConnected

variable {α : Type} {link : α → α → Prop} {u v w : α}

theorem refl (link : α → α → Prop) (v : α) : StronglyConnected link v v :=
  ⟨⟨0, .nil v⟩, ⟨0, .nil v⟩⟩

theorem symm (h : StronglyConnected link u v) : StronglyConnected link v u :=
  ⟨h.2, h.1⟩

theorem trans (h : StronglyConnected link u v) (h' : StronglyConnected link v w) :
    StronglyConnected link u w := by
  obtain ⟨⟨m, hforth⟩, ⟨n, hback⟩⟩ := h
  obtain ⟨⟨m', hforth'⟩, ⟨n', hback'⟩⟩ := h'
  exact ⟨⟨m + m', hforth.append hforth'⟩, ⟨n' + n, hback'.append hback⟩⟩

/-- A link whose target leads back connects its ends strongly. -/
theorem of_link {n : Nat} (hlink : link u v) (hback : Walk link n v u) :
    StronglyConnected link u v :=
  ⟨⟨1, .cons hlink (.nil v)⟩, ⟨n, hback⟩⟩

end StronglyConnected

/-! ## What is reached -/

section Reached

variable {next previous : String → List String} {vertices : TreeSet String} {origin w : String}

/-- A search comes to every vertex that its origin leads to, and to no other. -/
theorem mem_reached_iff (hclosed : ∀ u, ∀ w ∈ next u, w ∈ vertices) :
    w ∈ reached next vertices origin ↔ ∃ n, Walk (fun u v => v ∈ next u) n origin w := by
  rw [reached, List.mem_cons, mem_flatten_layersBeyond_iff (Frontier.start next origin hclosed),
    ← exists_isDistance_iff]
  constructor
  · intro h
    rcases h with rfl | ⟨n, _, hdist⟩
    · exact ⟨0, isDistance_zero_iff.mpr rfl⟩
    · exact ⟨n, hdist⟩
  · intro h
    obtain ⟨n, hdist⟩ := h
    cases n with
    | zero => exact .inl (isDistance_zero_iff.mp hdist).symm
    | succ n => exact .inr ⟨n + 1, Nat.succ_pos n, hdist⟩

theorem reached_nodup (next : String → List String) (vertices : TreeSet String)
    (origin : String) : (reached next vertices origin).Nodup := by
  rw [reached, List.nodup_cons]
  refine ⟨fun hmem => ?_, flatten_layersBeyond_nodup _ _⟩
  exact (mem_erase_iff.mp (mem_unvisited_of_mem_layersBeyond hmem)).1 rfl

theorem mem_reachedBothWays_iff :
    w ∈ reachedBothWays next previous vertices origin ↔
      w ∈ reached next vertices origin ∧ w ∈ reached previous vertices origin := by
  rw [reachedBothWays, List.mem_filter, decide_eq_true_iff, TreeSet.mem_ofList,
    List.contains_iff_mem]

end Reached

namespace Digraph

variable {ρ : Type} {g : Digraph ρ}

/-! ## The component of a vertex -/

/-- The strongly connected component of a vertex. -/
def component (g : Digraph ρ) (v : String) : List String :=
  reachedBothWays g.callees g.callers g.vertexSet v

theorem components_eq_foldl (g : Digraph ρ) :
    g.components = g.vertices.foldl (addComponent g.component) [] := by
  have hcallees : (fun v => g.calleeTable.getD v []) = g.callees := funext g.getD_calleeTable
  have hcallers : (fun v => g.callerTable.getD v []) = g.callers := funext g.getD_callerTable
  rw [components, hcallees, hcallers]
  rfl

theorem mem_component_iff {v w : String} :
    w ∈ g.component v ↔ StronglyConnected g.Links v w := by
  have hforth : (fun u w => w ∈ g.callees u) = g.Links := by
    funext u w
    exact propext mem_callees_iff
  have hback : (fun u w => w ∈ g.callers u) = flip g.Links := by
    funext u w
    exact propext mem_callers_iff
  unfold component
  rw [mem_reachedBothWays_iff,
    mem_reached_iff fun u w hw => mem_vertexSet_iff.mpr (mem_vertices_of_mem_callees hw),
    mem_reached_iff fun u w hw => mem_vertexSet_iff.mpr (mem_vertices_of_mem_callers hw),
    hforth, hback]
  simp only [walk_flip_iff, StronglyConnected]

theorem component_nodup (g : Digraph ρ) (v : String) : (g.component v).Nodup := by
  unfold component reachedBothWays
  exact (reached_nodup _ _ _).filter _

/-! ## All components -/

/-- Lists of vertices are the strongly connected components of the given vertices: they
cover these, no vertex is in a list twice or in two lists, and with a vertex a list has
those and only those that are strongly connected with it. -/
structure AreComponents (g : Digraph ρ) (vertices : List String)
    (components : List (List String)) : Prop where
  covers : ∀ v ∈ vertices, ∃ c ∈ components, v ∈ c
  nodup : ∀ c ∈ components, c.Nodup
  disjoint : components.Pairwise List.Disjoint
  mem_iff : ∀ c ∈ components, ∀ u ∈ c, ∀ v, v ∈ c ↔ StronglyConnected g.Links u v

theorem AreComponents.nil (g : Digraph ρ) : g.AreComponents [] [] where
  covers := by simp
  nodup := by simp
  disjoint := .nil
  mem_iff := by simp

/-- The component of one more vertex is new, unless the vertex is in one that is known. -/
theorem AreComponents.addComponent {vertices : List String} {found : List (List String)}
    (h : g.AreComponents vertices found) (v : String) :
    g.AreComponents (vertices ++ [v]) (addComponent g.component found v) := by
  unfold ApiDrift.addComponent
  split
  · rename_i hknown
    refine { h with covers := fun w hw => ?_ }
    rcases List.mem_append.mp hw with hw | hw
    · exact h.covers w hw
    · cases List.mem_singleton.mp hw
      exact hknown
  · rename_i hfresh
    have hself : v ∈ g.component v := mem_component_iff.mpr (.refl g.Links v)
    constructor
    case covers =>
      intro w hw
      rcases List.mem_append.mp hw with hw | hw
      · obtain ⟨c, hc, hmem⟩ := h.covers w hw
        exact ⟨c, List.mem_append_left _ hc, hmem⟩
      · cases List.mem_singleton.mp hw
        exact ⟨g.component v, by simp, hself⟩
    case nodup =>
      intro c hc
      rcases List.mem_append.mp hc with hc | hc
      · exact h.nodup c hc
      · cases List.mem_singleton.mp hc
        exact g.component_nodup v
    case disjoint =>
      refine List.pairwise_append.mpr ⟨h.disjoint, List.pairwise_singleton _ _, ?_⟩
      intro c hc c' hc' w hw hw'
      cases List.mem_singleton.mp hc'
      -- a vertex of both would put the new one into the known component
      have hback := (mem_component_iff.mp hw').symm
      exact hfresh ⟨c, hc, (h.mem_iff c hc w hw v).mpr hback⟩
    case mem_iff =>
      intro c hc u hu w
      rcases List.mem_append.mp hc with hc | hc
      · exact h.mem_iff c hc u hu w
      · cases List.mem_singleton.mp hc
        have hu := mem_component_iff.mp hu
        rw [mem_component_iff]
        exact ⟨fun hw => hu.symm.trans hw, fun hw => hu.trans hw⟩

theorem AreComponents.foldl_addComponent {vertices : List String} {found : List (List String)}
    (h : g.AreComponents vertices found) (more : List String) :
    g.AreComponents (vertices ++ more) (more.foldl (ApiDrift.addComponent g.component) found) := by
  induction more generalizing vertices found with
  | nil => rwa [List.append_nil]
  | cons v more ih =>
    have hstep := ih (h.addComponent v)
    rwa [List.append_assoc] at hstep

/-- The search finds the strongly connected components. -/
theorem areComponents_components (g : Digraph ρ) : g.AreComponents g.vertices g.components := by
  rw [components_eq_foldl]
  exact (AreComponents.nil g).foldl_addComponent g.vertices

/-! ## Links on cycles -/

theorem mem_linksInside_iff {next : String → List String} {c : List String} {u v : String} :
    (u, v) ∈ linksInside next c ↔ 1 < c.length ∧ u ∈ c ∧ v ∈ next u ∧ v ∈ c := by
  unfold linksInside
  split
  · rename_i hseveral
    simp [hseveral]
  · rename_i hsingle
    simp [hsingle]

theorem one_lt_length_of_mem {c : List String} {u v : String} (hu : u ∈ c) (hv : v ∈ c)
    (hne : u ≠ v) : 1 < c.length := by
  match c with
  | [] => cases hu
  | [w] => exact absurd ((List.mem_singleton.mp hu).trans (List.mem_singleton.mp hv).symm) hne
  | _ :: _ :: _ => simp

/-- The links that are read off strongly connected components, whichever way these are
found and ordered, are those whose target leads back to their source. -/
theorem AreComponents.mem_linksOnCycles_iff {components : List (List String)}
    (h : g.AreComponents g.vertices components) {u v : String} :
    (u, v) ∈ g.linksOnCycles components ↔ g.Links u v ∧ ∃ n, Walk g.Links n v u := by
  have hcallees : (fun v => g.calleeTable.getD v []) = g.callees := funext g.getD_calleeTable
  rw [linksOnCycles, hcallees, List.mem_append, List.mem_flatMap]
  constructor
  · intro hmem
    rcases hmem with ⟨c, hc, hinside⟩ | hself
    · obtain ⟨_, hu, hlink, hv⟩ := mem_linksInside_iff.mp hinside
      exact ⟨mem_callees_iff.mp hlink, ((h.mem_iff c hc u hu v).mp hv).2⟩
    · obtain ⟨hlink, hsame⟩ := List.mem_filter.mp hself
      obtain rfl : u = v := of_decide_eq_true hsame
      exact ⟨hlink, 0, .nil u⟩
  · intro hcycle
    obtain ⟨hlink, n, hback⟩ := hcycle
    by_cases hself : u = v
    · subst hself
      exact .inr (List.mem_filter.mpr ⟨hlink, decide_eq_true rfl⟩)
    · obtain ⟨c, hc, hu⟩ := h.covers u (g.ends_mem _ hlink).1
      have hv : v ∈ c := (h.mem_iff c hc u hu v).mpr (.of_link hlink hback)
      refine .inl ⟨c, hc, mem_linksInside_iff.mpr ⟨?_, hu, mem_callees_iff.mpr hlink, hv⟩⟩
      exact one_lt_length_of_mem hu hv hself

theorem contains_cycleTable_iff {u v : String} :
    (g.cycleTable.getD u []).contains v = true ↔ g.Links u v ∧ ∃ n, Walk g.Links n v u := by
  rw [← g.areComponents_components.mem_linksOnCycles_iff, cycleTable, getD_tableOf,
    List.contains_iff_mem, mem_targets_iff]

/-- Components and what is read off them depend on the links, not on their records. -/
theorem cycleTable_mapRecords (f : String → String → ρ → ρ) (g : Digraph ρ) :
    (g.mapRecords f).cycleTable = g.cycleTable := by
  have hkeys : (g.mapRecords f).links.keys = g.links.keys :=
    InsertionMap.keys_mapValues _ _
  simp only [cycleTable, linksOnCycles, components, selfLinks, calleeTable, callerTable, hkeys]
  rfl

end Digraph

end ApiDrift
