import ApiDrift.CallGraph.Assembly
import ApiDrift.Impact.Report
import ApiDrift.Proofs.CallGraph.Layers
import Mathlib.Data.Set.Card

set_option autoImplicit false

/-!
# The callers of a report are those within the limit

A report lists the symbols from which a shortest chain of calls to the changed
symbol is no longer than the limit allows, and none of them twice.  The direct
callers are those at distance one; the transitive ones follow by distance.
-/

namespace ApiDrift

open Std

/-! ## Layers of callers -/

namespace Digraph

variable {ρ : Type} {g : Digraph ρ}

/-- Looking callers up in their table goes against the links. -/
theorem mem_callerTable_eq_flip (g : Digraph ρ) :
    (fun u w => w ∈ g.callerTable.getD u []) = flip g.Links := by
  funext u w
  rw [getD_callerTable, mem_callers_iff]
  rfl

theorem mem_vertexSet_of_mem_callerTable {u w : String} (h : w ∈ g.callerTable.getD u []) :
    w ∈ g.vertexSet := by
  rw [getD_callerTable] at h
  exact mem_vertexSet_iff.mpr (mem_vertices_of_mem_callers h)

/-- With its callers other than itself taken out, a search from a vertex is one
step away from it. -/
theorem frontier_of_callers {v : String} {direct : List String}
    (hdirect : ∀ w, w ∈ direct ↔ w ≠ v ∧ w ∈ g.callers v) :
    Frontier (fun u => g.callerTable.getD u []) v 1 (sweep (v :: direct) g.vertexSet).2
      direct := by
  have hstart := Frontier.start (fun u => g.callerTable.getD u []) v
    fun u w hw => mem_vertexSet_of_mem_callerTable hw
  refine hstart.advance.congr ?_ ?_
  · intro w
    rw [hdirect, mem_sweep_iff, mem_erase_iff, List.flatMap_singleton, getD_callerTable]
    constructor
    · intro h
      obtain ⟨different, hw⟩ := h
      exact ⟨hw, different, mem_vertexSet_iff.mpr (mem_vertices_of_mem_callers hw)⟩
    · intro h
      obtain ⟨hw, different, _⟩ := h
      exact ⟨different, hw⟩
  · intro w
    rw [mem_left_iff, mem_left_iff, mem_erase_iff, List.mem_cons, hdirect,
      List.flatMap_singleton, getD_callerTable]
    tauto

/-- The layer of callers at an index holds the vertices at the distance that is by
two larger, unless that is beyond the limit. -/
theorem mem_callerLayers_iff {limit : Option Nat} {v : String} {direct : List String}
    (hdirect : ∀ w, w ∈ direct ↔ w ≠ v ∧ w ∈ g.callers v) (k : Nat) (w : String) :
    (∃ l, (g.callerLayers limit v direct)[k]? = some l ∧ w ∈ l) ↔
      IsDistance g.Links (k + 2) w v ∧ ∀ d ∈ limit, k + 2 ≤ d := by
  have hlayers := mem_layersBeyond_iff (frontier_of_callers hdirect) k w
  rw [mem_callerTable_eq_flip, isDistance_flip_iff, Nat.add_comm 2 k] at hlayers
  rw [← hlayers]
  cases limit with
  | none => simp [callerLayers]
  | some steps =>
    simp only [callerLayers, List.getElem?_take, Option.mem_def, Option.some.injEq,
      forall_eq']
    by_cases hk : k < steps - 1
    · have hwithin : k + 2 ≤ steps := by omega
      simp [hk, hwithin]
    · have hbeyond : ¬ k + 2 ≤ steps := by omega
      simp [hk, hbeyond]

theorem callerLayers_nodup (limit : Option Nat) (v : String) (direct : List String) :
    (g.callerLayers limit v direct).flatten.Nodup := by
  cases limit with
  | none => exact flatten_layersBeyond_nodup _ _
  | some steps =>
    exact (flatten_layersBeyond_nodup _ _).sublist (List.take_sublist _ _).flatten

end Digraph

/-! ## Callers within a limit -/

/-- The symbols from which a shortest chain of calls leads to a symbol within a
limit, the symbol itself excepted. -/
def CallGraph.callersWithin (g : CallGraph) (limit : Option Nat) (ref : String) : Set String :=
  {n | n ≠ ref ∧ ∃ k, IsDistance g.calls.Links k n ref ∧ ∀ d ∈ limit, k ≤ d}

namespace Impact

variable {g : CallGraph} {limit : Option Nat} {ref : String}

theorem mem_directCallers_iff {n : String} :
    n ∈ directCallers g ref ↔ n ≠ ref ∧ g.calls.Links n ref := by
  rw [directCallers, List.mem_filter, CallGraph.callers, Digraph.mem_callers_iff,
    decide_eq_true_eq, and_comm]
  rfl

theorem mem_directCallers_iff_isDistance {n : String} :
    n ∈ directCallers g ref ↔ IsDistance g.calls.Links 1 n ref := by
  rw [mem_directCallers_iff, isDistance_one_iff, and_comm]

theorem mem_callerLayers_directCallers_iff (k : Nat) (w : String) :
    (∃ l, (g.calls.callerLayers limit ref (directCallers g ref))[k]? = some l ∧ w ∈ l) ↔
      IsDistance g.calls.Links (k + 2) w ref ∧ ∀ d ∈ limit, k + 2 ≤ d :=
  Digraph.mem_callerLayers_iff (fun w => by
    rw [mem_directCallers_iff, Digraph.mem_callers_iff]
    rfl) k w

theorem mem_transitiveCallers_iff {n : String} :
    n ∈ transitiveCallers limit g ref ↔
      ∃ k, 2 ≤ k ∧ IsDistance g.calls.Links k n ref ∧ ∀ d ∈ limit, k ≤ d := by
  rw [transitiveCallers, List.mem_flatten]
  constructor
  · intro h
    obtain ⟨l, hl, hn⟩ := h
    obtain ⟨k, hk⟩ := List.mem_iff_getElem?.mp hl
    exact ⟨k + 2, by omega, (mem_callerLayers_directCallers_iff k n).mp ⟨l, hk, hn⟩⟩
  · intro h
    obtain ⟨k, htwo, hdist⟩ := h
    obtain ⟨i, rfl⟩ : ∃ i, k = i + 2 := ⟨k - 2, by omega⟩
    obtain ⟨l, hl, hn⟩ := (mem_callerLayers_directCallers_iff i n).mpr hdist
    exact ⟨l, List.mem_of_getElem? hl, hn⟩

/-- All callers are the callers within the limit; a limit of no step at all is none
that a configuration can set. -/
theorem mem_allCallers_iff (hpositive : ∀ d ∈ limit, 1 ≤ d) {n : String} :
    n ∈ allCallers limit g ref ↔ n ∈ g.callersWithin limit ref := by
  rw [allCallers, List.mem_append, mem_directCallers_iff_isDistance, mem_transitiveCallers_iff]
  constructor
  · intro h
    rcases h with hone | ⟨k, htwo, hdist, hwithin⟩
    · exact ⟨(isDistance_one_iff.mp hone).2, 1, hone, hpositive⟩
    · refine ⟨?_, k, hdist, hwithin⟩
      rintro rfl
      have hzero := hdist.unique (isDistance_zero_iff.mpr rfl)
      omega
  · intro h
    obtain ⟨different, k, hdist, hwithin⟩ := h
    have hk : k ≠ 0 := by
      rintro rfl
      exact different (isDistance_zero_iff.mp hdist)
    rcases Nat.lt_or_ge 1 k with hfar | hnear
    · exact .inr ⟨k, hfar, hdist, hwithin⟩
    · have hone : k = 1 := by omega
      exact .inl (hone ▸ hdist)

theorem allCallers_nodup (limit : Option Nat) (g : CallGraph) (ref : String) :
    (allCallers limit g ref).Nodup := by
  refine List.nodup_append.mpr
    ⟨(g.calls.callers_nodup ref).filter _, Digraph.callerLayers_nodup _ _ _, ?_⟩
  rintro n hdirect n' htransitive rfl
  obtain ⟨k, htwo, hdist, _⟩ := mem_transitiveCallers_iff.mp htransitive
  have hone := (mem_directCallers_iff_isDistance.mp hdirect).unique hdist
  omega

/-- Of two transitive callers the one listed first is not the farther one. -/
theorem transitiveCallers_pairwise (limit : Option Nat) (g : CallGraph) (ref : String) :
    (transitiveCallers limit g ref).Pairwise fun a b =>
      ∀ j k, IsDistance g.calls.Links j a ref → IsDistance g.calls.Links k b ref → j ≤ k := by
  have hlayer : ∀ i l, (g.calls.callerLayers limit ref (directCallers g ref))[i]? = some l →
      ∀ w ∈ l, ∀ k, IsDistance g.calls.Links k w ref → k = i + 2 := by
    intro i l hl w hw k hk
    exact hk.unique ((mem_callerLayers_directCallers_iff i w).mp ⟨l, hl, hw⟩).1
  rw [transitiveCallers, List.pairwise_flatten]
  constructor
  · intro l hl
    obtain ⟨i, hi⟩ := List.mem_iff_getElem?.mp hl
    refine List.pairwise_of_forall_mem_list fun a ha b hb j k hj hk => ?_
    rw [hlayer i l hi a ha j hj, hlayer i l hi b hb k hk]
  · refine List.pairwise_iff_getElem.mpr fun i i' hi hi' hlt a ha b hb j k hj hk => ?_
    rw [hlayer i _ (List.getElem?_eq_getElem hi) a ha j hj,
      hlayer i' _ (List.getElem?_eq_getElem hi') b hb k hk]
    omega

theorem ncard_callersWithin (hpositive : ∀ d ∈ limit, 1 ≤ d) :
    (g.callersWithin limit ref).ncard = (allCallers limit g ref).length := by
  have hset : g.callersWithin limit ref = ((allCallers limit g ref).toFinset : Set String) := by
    ext n
    rw [List.coe_toFinset]
    exact (mem_allCallers_iff hpositive).symm
  rw [hset, Set.ncard_coe_finset, List.toFinset_card_of_nodup (allCallers_nodup _ _ _)]

/-! ## Main statement -/

theorem find?_of_contains {module symbol : String} (hnonempty : ref ≠ "")
    (hknown : g.contains ref = true) : g.find? (some ref) module symbol = some ref := by
  have hfilter : (some ref).filter (fun ref => ref ≠ "" && g.contains ref) = some ref := by
    simp [Option.filter, hnonempty, hknown]
  rw [CallGraph.find?, hfilter]

/-- The report on a symbol of the call graph lists its callers without omission or
repetition, as far as the limit of the configuration reaches, nearest first. -/
theorem reportOn_callers_exact (config : Config) (g : CallGraph) (entryPoints : List String)
    (exported : InsertionMap String String) {ref : String} (hnonempty : ref ≠ "")
    (hknown : g.contains ref = true) :
    let report := reportOn config g entryPoints exported ref
    let callers := report.directCallers ++ report.transitiveCallers
    (∀ n, n ∈ report.directCallers ↔ n ≠ ref ∧ g.calls.Links n ref) ∧
    callers.Nodup ∧
    ref ∉ callers ∧
    (∀ n, n ∈ callers ↔ n ∈ g.callersWithin config.maxDepth ref) ∧
    (report.transitiveCallers.Pairwise fun a b =>
      ∀ j k, IsDistance g.calls.Links j a ref → IsDistance g.calls.Links k b ref → j ≤ k) ∧
    report.blastRadius = (g.callersWithin config.maxDepth ref).ncard := by
  have hpositive : ∀ d ∈ config.maxDepth, 1 ≤ d := fun d hd => config.one_le_of_mem_maxDepth hd
  rw [reportOn, find?_of_contains hnonempty hknown]
  intro report callers
  have hexact : ∀ n, n ∈ callers ↔ n ∈ g.callersWithin config.maxDepth ref :=
    fun n => mem_allCallers_iff hpositive
  refine ⟨fun n => mem_directCallers_iff, allCallers_nodup _ _ _, ?_, hexact,
    transitiveCallers_pairwise _ _ _, ?_⟩
  · intro hself
    exact ((hexact ref).mp hself).1 rfl
  · rw [ncard_callersWithin hpositive]
    rfl

/-- With a limit of two, a symbol that calls itself and sits on a cycle has the two
callers of a diamond and the one behind them, but not the one behind that. -/
theorem reportOn_callers_exact_diamond :
    let g := CallGraph.build []
      [⟨"a", "s", 1, false⟩, ⟨"b", "s", 1, false⟩, ⟨"s", "s", 1, false⟩, ⟨"c", "a", 1, false⟩,
        ⟨"c", "b", 1, false⟩, ⟨"s", "c", 1, false⟩, ⟨"d", "c", 1, false⟩]
    let config : Config := ⟨{ maxDepth := .number 2 }, rfl⟩
    ("s" ≠ "" ∧ g.contains "s" = true) ∧
      "c" ∈ g.callersWithin config.maxDepth "s" ∧ "d" ∉ g.callersWithin config.maxDepth "s" ∧
      (g.callersWithin config.maxDepth "s").ncard = 3 := by
  intro g config
  have hnonempty : "s" ≠ "" := by decide
  have hknown : g.contains "s" = true := by decide +kernel
  obtain ⟨_, _, _, hexact, _, hcount⟩ := reportOn_callers_exact config g [] ∅ hnonempty hknown
  have hradius : (reportOn config g [] ∅ "s").blastRadius = 3 := by decide +kernel
  refine ⟨⟨hnonempty, hknown⟩, (hexact "c").mp ?_, fun hd => ?_, ?_⟩
  · decide +kernel
  · exact absurd ((hexact "d").mpr hd) (by decide +kernel)
  · exact_mod_cast hcount.symm.trans hradius

end Impact

end ApiDrift
