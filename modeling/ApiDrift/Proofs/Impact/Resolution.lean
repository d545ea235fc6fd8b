import ApiDrift.Proofs.CallGraph.Rebuild
import ApiDrift.Proofs.Impact.Growth

set_option autoImplicit false

/-!
# Which node a symbol stands for

A symbol stands for the node of its reference, or else for the one that its module and name
refer to, or else for the first record of that module and name.  An assembled graph knows
the node that it finds in any of the three ways.  The first two can change when calls are
added, since these may bring in a reference that was not known before; the third one cannot,
since a placeholder for a reference never has the module and the name of another one.
-/

namespace ApiDrift

namespace CallGraph

variable {g : CallGraph} {nodes : List Node} {edges : List Edge} {ref module symbol : String}

/-! ## Ways of finding a node -/

/-- The node that a symbol of the given reference, module and name stands for, if any. -/
inductive Resolves (g : CallGraph) (ref module symbol : String) : Option String → Prop
  /-- The reference is known. -/
  | reference (hnonempty : ref ≠ "") (hknown : g.contains ref = true) :
    Resolves g ref module symbol (some ref)
  /-- There is no module or no name to go by. -/
  | unnamed (hunknown : ¬ (ref ≠ "" ∧ g.contains ref = true)) (hblank : module = "" ∨ symbol = "") :
    Resolves g ref module symbol none
  /-- The reference of the module and the name is known. -/
  | name (hunknown : ¬ (ref ≠ "" ∧ g.contains ref = true)) (hnamed : ¬ (module = "" ∨ symbol = ""))
      (hknown : g.contains (Reference.ofName module symbol) = true) :
    Resolves g ref module symbol (some (Reference.ofName module symbol))
  /-- A record of the module and the name is looked for. -/
  | record (hunknown : ¬ (ref ≠ "" ∧ g.contains ref = true))
      (hnamed : ¬ (module = "" ∨ symbol = ""))
      (hmissing : g.contains (Reference.ofName module symbol) = false) :
    Resolves g ref module symbol (g.recordOf? module symbol)

theorem resolves_find? (g : CallGraph) (ref module symbol : String) :
    g.Resolves ref module symbol (g.find? (some ref) module symbol) := by
  by_cases hknown : ref ≠ "" ∧ g.contains ref = true
  · rw [Impact.find?_of_contains hknown.1 hknown.2]
    exact .reference hknown.1 hknown.2
  · rw [Impact.find?_of_unknown hknown, findNamed?]
    split
    · rename_i hblank
      exact .unnamed hknown hblank
    · rename_i hnamed
      split
      · rename_i hname
        exact .name hknown hnamed hname
      · rename_i hname
        exact .record hknown hnamed (Bool.eq_false_iff.mpr hname)

/-! ## Records of assembled graphs -/

theorem contains_build_iff_mem_keys :
    (build nodes edges).contains ref = true ↔ ref ∈ (build nodes edges).nodes.keys := by
  rw [contains, Bool.or_eq_true, InsertionMap.contains_iff, List.contains_iff_mem,
    vertices_build_eq_keys, or_self]

/-- An assembled graph knows its records by their references. -/
theorem contains_of_recordOf?_build {node : String}
    (h : (build nodes edges).recordOf? module symbol = some node) :
    (build nodes edges).contains node = true := by
  obtain ⟨n, hn, rfl⟩ := Option.map_eq_some_iff.mp h
  have hentry : (n.id, n) ∈ (build nodes edges).nodes.entries := by
    rw [← map_id_values_build]
    exact List.mem_map_of_mem (List.mem_of_find?_eq_some hn)
  exact contains_build_iff_mem_keys.mpr (List.mem_map_of_mem hentry)

theorem contains_of_find?_build {node : String}
    (h : (build nodes edges).find? (some ref) module symbol = some node) :
    (build nodes edges).contains node = true := by
  have hresolves := resolves_find? (build nodes edges) ref module symbol
  rw [h] at hresolves
  generalize hfound : some node = found at hresolves
  cases hresolves with
  | reference _ hknown =>
    cases hfound
    exact hknown
  | unnamed => cases hfound
  | name _ _ hknown =>
    cases hfound
    exact hknown
  | record => exact contains_of_recordOf?_build hfound.symm

/-- The records given for symbols, by reference. -/
def givenRecords (nodes : List Node) : InsertionMap String Node :=
  .ofList (nodes.map fun n => (n.id, n))

/-- Placeholders stand behind the records that are given. -/
theorem entries_collectNodes (nodes : List Node) (edges : List Edge) :
    (collectNodes nodes edges).entries =
      (givenRecords nodes).entries ++
        (InsertionMap.ofClaims ((endpoints edges).map fun ref => (ref, placeholder ref))).entries.filter
          fun e => e.1 ∉ (givenRecords nodes).keys := by
  rw [← InsertionMap.entries_foldl_claim, List.foldl_map]
  rfl

/-- The flags that are derived have no say in which record is found. -/
theorem recordOf?_build (nodes : List Node) (edges : List Edge) (module symbol : String) :
    (build nodes edges).recordOf? module symbol =
      ((collectNodes nodes edges).values.find? fun n =>
        n.module = module ∧ n.symbol = symbol).map Node.id := by
  simp only [recordOf?, build, InsertionMap.values, InsertionMap.mapValues, List.map_map,
    List.find?_map, Option.map_map]
  rfl

/-- Where the reference of a module and a name is unknown, only a given record can be of
that module and name. -/
theorem recordOf?_build_of_unknown (hnamed : module ≠ "")
    (hmissing : (build nodes edges).contains (Reference.ofName module symbol) = false) :
    (build nodes edges).recordOf? module symbol =
      ((givenRecords nodes).values.find? fun n =>
        n.module = module ∧ n.symbol = symbol).map Node.id := by
  have hplaceholders : ∀ e ∈ (InsertionMap.ofClaims
      ((endpoints edges).map fun ref => (ref, placeholder ref))).entries,
        ¬ (e.2.module = module ∧ e.2.symbol = symbol) := by
    intro e he hsame
    obtain ⟨ref, href, rfl⟩ := List.mem_map.mp (InsertionMap.mem_of_mem_entries_ofClaims he)
    obtain ⟨rfl, rfl⟩ := hsame
    rw [ofName_placeholder hnamed, ← Bool.not_eq_true, contains_build_iff] at hmissing
    exact hmissing (.inr href)
  rw [recordOf?_build, InsertionMap.values, entries_collectNodes, List.map_append,
    List.find?_append]
  have hnone : ((((InsertionMap.ofClaims
      ((endpoints edges).map fun ref => (ref, placeholder ref))).entries.filter
        fun e => e.1 ∉ (givenRecords nodes).keys).map Prod.snd).find? fun n =>
          n.module = module ∧ n.symbol = symbol) = none := by
    refine List.find?_eq_none.mpr fun n hn hsame => ?_
    obtain ⟨e, he, rfl⟩ := List.mem_map.mp hn
    exact hplaceholders e (List.mem_of_mem_filter he) (of_decide_eq_true hsame)
  rw [hnone, Option.or_none]
  rfl

/-! ## Added calls -/

section AddedCalls

variable {edges' : List Edge} {node : String}

theorem Within.contains_eq_false {g' : CallGraph} (h : g.Within g')
    (hunknown : g'.contains ref = false) : g.contains ref = false := by
  rw [← Bool.not_eq_true] at hunknown ⊢
  exact fun hknown => hunknown (h.contains ref hknown)

/-- Calls add no record of a module and a name under another reference than theirs. -/
theorem recordOf?_build_eq (h : (build nodes edges).Within (build nodes edges'))
    (hnamed : ¬ (module = "" ∨ symbol = ""))
    (hmissing : (build nodes edges').contains (Reference.ofName module symbol) = false) :
    (build nodes edges).recordOf? module symbol = (build nodes edges').recordOf? module symbol := by
  have hmodule : module ≠ "" := fun hblank => hnamed (.inl hblank)
  rw [recordOf?_build_of_unknown hmodule hmissing,
    recordOf?_build_of_unknown hmodule (h.contains_eq_false hmissing)]

/-- With more calls a symbol stands for what it stood for before, unless it is now found
under a reference that was not known before. -/
theorem find?_build_eq_of_known (h : (build nodes edges).Within (build nodes edges'))
    (hknown : ∀ node, (build nodes edges').find? (some ref) module symbol = some node →
      (build nodes edges).contains node = true) :
    (build nodes edges).find? (some ref) module symbol =
      (build nodes edges').find? (some ref) module symbol := by
  -- what the larger graph does not know, the smaller one does not know either
  have hfewer : ¬ (ref ≠ "" ∧ (build nodes edges').contains ref = true) →
      ¬ (ref ≠ "" ∧ (build nodes edges).contains ref = true) :=
    fun hunknown hboth => hunknown ⟨hboth.1, h.contains ref hboth.2⟩
  have hresolves := resolves_find? (build nodes edges') ref module symbol
  generalize (build nodes edges').find? (some ref) module symbol = found at hknown hresolves ⊢
  cases hresolves with
  | reference hnonempty => exact Impact.find?_of_contains hnonempty (hknown ref rfl)
  | unnamed hunknown hblank =>
    rw [Impact.find?_of_unknown (hfewer hunknown), findNamed?, if_pos hblank]
  | name hunknown hnamed =>
    rw [Impact.find?_of_unknown (hfewer hunknown), findNamed?, if_neg hnamed,
      if_pos (hknown _ rfl)]
  | record hunknown hnamed hmissing =>
    rw [Impact.find?_of_unknown (hfewer hunknown), findNamed?, if_neg hnamed,
      if_neg (Bool.eq_false_iff.mp (h.contains_eq_false hmissing)),
      recordOf?_build_eq h hnamed hmissing]

/-- A node that is new to a graph is found under one of the two references of a symbol. -/
theorem eq_reference_of_find?_build (h : (build nodes edges).Within (build nodes edges'))
    (hfound : (build nodes edges').find? (some ref) module symbol = some node)
    (hnew : (build nodes edges).contains node = false) :
    node = ref ∨ node = Reference.ofName module symbol := by
  have hresolves := resolves_find? (build nodes edges') ref module symbol
  rw [hfound] at hresolves
  generalize hout : some node = found at hresolves
  cases hresolves with
  | reference => exact .inl (Option.some.inj hout)
  | unnamed => cases hout
  | name => exact .inr (Option.some.inj hout)
  | record _ hnamed hmissing =>
    -- a record that is found was given for its symbol, which is then not new
    rw [← recordOf?_build_eq h hnamed hmissing] at hout
    rw [contains_of_recordOf?_build hout.symm] at hnew
    cases hnew

end AddedCalls

end CallGraph

end ApiDrift
