import ApiDrift.Proofs.CallGraph.Recursion
import ApiDrift.Proofs.CallGraph.References
import ApiDrift.Proofs.Impact.Callers
import ApiDrift.Proofs.Impact.Thresholds

set_option autoImplicit false

/-!
# Impact grows with the calls and not with their order

A call graph that has the symbols and the links of another one, with every symbol in
its place, leaves no caller out that the other one has: chains of calls can only get
shorter.  So no part of a report shrinks when calls are added.  Graphs that are
assembled from the same records in different orders are each within the other, and
their reports differ in order alone.
-/

namespace ApiDrift

/-! ## Graphs within graphs -/

/-- The module and the name that a record gives to its symbol. -/
def Node.place (n : Node) : String × String := (n.module, n.symbol)

/-- Which export a symbol is depends on its reference and its place. -/
theorem Impact.exportName?_eq_place (exported : InsertionMap String String) (g : CallGraph)
    (ref : String) :
    exportName? exported g ref =
      (exported.get? ref).or
        ((((g.node? ref).map Node.place).filter fun place => place.1 ≠ "" && place.2 ≠ "").bind
          fun place => exported.get? (Reference.ofName place.1 place.2)) := by
  unfold exportName?
  cases exported.get? ref with
  | some name => rfl
  | none =>
    cases g.node? ref with
    | none => rfl
    | some n =>
      simp only [Option.map_some, Option.filter_some, Node.place]
      split <;> rfl

namespace CallGraph

/-- A call graph is within another one that has all its links, knows all its symbols
and gives them the same places. -/
structure Within (g g' : CallGraph) : Prop where
  links : ∀ u v, g.calls.Links u v → g'.calls.Links u v
  contains : ∀ ref, g.contains ref = true → g'.contains ref = true
  place : ∀ ref, g.contains ref = true →
    (g'.node? ref).map Node.place = (g.node? ref).map Node.place

theorem contains_of_mem_vertices {g : CallGraph} {ref : String} (h : ref ∈ g.calls.vertices) :
    g.contains ref = true := by
  rw [CallGraph.contains, Bool.or_eq_true, List.contains_iff_mem]
  exact .inr h

theorem contains_of_walk {g : CallGraph} {u v : String} {n : Nat} (hother : u ≠ v)
    (h : Walk g.calls.Links n u v) : g.contains u = true := by
  cases h with
  | nil => exact absurd rfl hother
  | cons first rest => exact contains_of_mem_vertices (g.calls.ends_mem _ first).1

theorem contains_of_mem_callersWithin {g : CallGraph} {limit : Option Nat} {ref n : String}
    (h : n ∈ g.callersWithin limit ref) : g.contains n = true := by
  obtain ⟨hother, k, hdist, _⟩ := h
  exact contains_of_walk hother hdist.1

namespace Within

variable {g g' : CallGraph} {ref : String}

theorem moduleOf?_eq (h : g.Within g') (hknown : g.contains ref = true) :
    g'.moduleOf? ref = g.moduleOf? ref := by
  have hmodule : (g'.node? ref).map Node.module = (g.node? ref).map Node.module := by
    have hplace := congrArg (Option.map Prod.fst) (h.place ref hknown)
    rwa [Option.map_map, Option.map_map] at hplace
  rw [moduleOf?, moduleOf?, hmodule]

theorem exportName?_eq (h : g.Within g') (hknown : g.contains ref = true)
    (exported : InsertionMap String String) :
    Impact.exportName? exported g' ref = Impact.exportName? exported g ref := by
  rw [Impact.exportName?_eq_place, Impact.exportName?_eq_place, h.place ref hknown]

/-- With more links chains of calls get shorter, so callers stay within the limit. -/
theorem callersWithin_subset (h : g.Within g') (limit : Option Nat) (ref : String) :
    g.callersWithin limit ref ⊆ g'.callersWithin limit ref := by
  intro n hn
  obtain ⟨different, k, hdist, hwithin⟩ := hn
  obtain ⟨k', hle, hdist'⟩ := (hdist.1.mono h.links).exists_isDistance_le
  exact ⟨different, k', hdist', fun d hd => Nat.le_trans hle (hwithin d hd)⟩

end Within

/-! ## Assembled graphs -/

variable {nodes nodes' : List Node} {edges edges' : List Edge}

theorem mem_endpoints_iff {ref : String} :
    ref ∈ endpoints edges ↔ ∃ e ∈ edges, ref = e.source ∨ ref = e.target := by
  simp only [endpoints, List.mem_flatMap, List.mem_cons, List.not_mem_nil, or_false]

/-- Records that give every symbol the same record and have all calls of others make up
a graph that the graph of the others is within. -/
theorem build_within (hnodes : ∀ ref, given? nodes' ref = given? nodes ref)
    (hedges : ∀ e ∈ edges, ∃ e' ∈ edges', e'.source = e.source ∧ e'.target = e.target) :
    (build nodes edges).Within (build nodes' edges') := by
  have hendpoints : ∀ ref, ref ∈ endpoints edges → ref ∈ endpoints edges' := by
    intro ref href
    obtain ⟨e, he, hend⟩ := mem_endpoints_iff.mp href
    obtain ⟨e', he', hsource, htarget⟩ := hedges e he
    exact mem_endpoints_iff.mpr ⟨e', he', by rwa [hsource, htarget]⟩
  have hids : ∀ ref, ref ∈ nodes.map Node.id ↔ ref ∈ nodes'.map Node.id := by
    intro ref
    rw [← not_iff_not, ← given?_eq_none_iff, ← given?_eq_none_iff, hnodes]
  refine ⟨fun u v hlink => ?_, fun ref hknown => ?_, fun ref hknown => ?_⟩
  · rw [links_build_iff, links_collectCalls_iff] at hlink ⊢
    obtain ⟨e, he, rfl, rfl⟩ := hlink
    exact hedges e he
  · rw [contains_build_iff] at hknown ⊢
    exact hknown.imp (hids ref).mp (hendpoints ref)
  · rw [contains_build_iff] at hknown
    rw [node?_build, node?_build, hnodes, Option.map_map, Option.map_map]
    cases hgiven : given? nodes ref with
    | some n => rfl
    | none =>
      have hend := hknown.resolve_left (given?_eq_none_iff.mp hgiven)
      rw [if_pos hend, if_pos (hendpoints ref hend)]
      rfl

end CallGraph

namespace Impact

variable {g g' : CallGraph} {limit : Option Nat} {ref : String}

/-! ## Reports of known and of unknown symbols -/

theorem reportOn_of_known (config : Config) (entryPoints : List String)
    (exported : InsertionMap String String) (hnonempty : ref ≠ "") (hknown : g.contains ref = true) :
    reportOn config g entryPoints exported ref =
      .ofNode config g exported ref ref (entryPoints.contains ref) := by
  rw [reportOn, find?_of_contains hnonempty hknown, Report.ofNode?, Bool.or_self]

theorem find?_of_unknown {module symbol : String}
    (hunknown : ¬ (ref ≠ "" ∧ g.contains ref = true)) :
    g.find? (some ref) module symbol = g.findNamed? module symbol := by
  refine CallGraph.find?_of_unresolved fun r hr => ?_
  rwa [← Option.some.inj hr]

theorem reportOn_of_unknown (config : Config) (entryPoints : List String)
    (exported : InsertionMap String String) (hunknown : ¬ (ref ≠ "" ∧ g.contains ref = true)) :
    reportOn config g entryPoints exported ref =
      .isolated config ref (entryPoints.contains ref) := by
  rw [reportOn, find?_of_unknown hunknown]
  rfl

/-! ## Reports within reports -/

/-- A report is within another one that has all its callers and all that is affected,
and whose numbers are not smaller. -/
structure Report.Within (r r' : Report) : Prop where
  callers : r.directCallers ++ r.transitiveCallers ⊆ r'.directCallers ++ r'.transitiveCallers
  modules : r.affectedModules ⊆ r'.affectedModules
  exports : r.affectedExports ⊆ r'.affectedExports
  radius : r.blastRadius ≤ r'.blastRadius
  level : r.level.rank ≤ r'.level.rank

theorem Report.Within.refl (r : Report) : r.Within r :=
  ⟨List.Subset.refl _, List.Subset.refl _, List.Subset.refl _, Int.le_refl _, Nat.le_refl _⟩

theorem Report.Within.trans {r r' r'' : Report} (h : r.Within r') (h' : r'.Within r'') :
    r.Within r'' where
  callers := fun _ hn => h'.callers (h.callers hn)
  modules := fun _ hm => h'.modules (h.modules hm)
  exports := fun _ he => h'.exports (h.exports he)
  radius := Int.le_trans h.radius h'.radius
  level := Nat.le_trans h.level h'.level

/-- What callers are affects what more callers are. -/
theorem affected_subset {f f' : String → Option String} {callers callers' : List String}
    (hcallers : callers ⊆ callers') (hsame : ∀ n ∈ callers, f' n = f n) :
    (callers.filterMap f).eraseDups ⊆ (callers'.filterMap f').eraseDups := by
  intro name hname
  rw [List.mem_eraseDups, List.mem_filterMap] at hname ⊢
  obtain ⟨n, hn, hf⟩ := hname
  exact ⟨n, hcallers hn, (hsame n hn).trans hf⟩

theorem allCallers_subset (h : g.Within g') (hpositive : ∀ d ∈ limit, 1 ≤ d) :
    allCallers limit g ref ⊆ allCallers limit g' ref := by
  intro n hn
  rw [mem_allCallers_iff hpositive] at hn ⊢
  exact h.callersWithin_subset limit ref hn

theorem contains_of_mem_allCallers (hpositive : ∀ d ∈ limit, 1 ≤ d) {n : String}
    (hn : n ∈ allCallers limit g ref) : g.contains n = true :=
  CallGraph.contains_of_mem_callersWithin ((mem_allCallers_iff hpositive).mp hn)

/-- Without callers there is nothing in a report that a report with callers would not
have. -/
theorem isolated_within_ofNode (config : Config) (g : CallGraph)
    (exported : InsertionMap String String) (symbolRef node : String) (isEntryPoint : Bool) :
    (Report.isolated config symbolRef isEntryPoint).Within
      (.ofNode config g exported symbolRef node isEntryPoint) where
  callers := List.nil_subset _
  modules := List.nil_subset _
  exports := List.nil_subset _
  radius := Int.natCast_nonneg _
  level := Config.level_mono (Int.natCast_nonneg _) (Int.natCast_nonneg _) id

theorem ofNode_within (config : Config) (h : g.Within g') (exported : InsertionMap String String)
    (symbolRef node : String) (isEntryPoint : Bool) :
    (Report.ofNode config g exported symbolRef node isEntryPoint).Within
      (.ofNode config g' exported symbolRef node isEntryPoint) := by
  have hpositive : ∀ d ∈ config.maxDepth, 1 ≤ d := fun d hd => config.one_le_of_mem_maxDepth hd
  have hcallers : allCallers config.maxDepth g node ⊆ allCallers config.maxDepth g' node :=
    allCallers_subset h hpositive
  have hknown : ∀ n ∈ allCallers config.maxDepth g node, g.contains n = true :=
    fun n hn => contains_of_mem_allCallers hpositive hn
  have hmodules := affected_subset hcallers fun n hn => h.moduleOf?_eq (hknown n hn)
  have hexports := affected_subset hcallers fun n hn => h.exportName?_eq (hknown n hn) exported
  have hradius : (allCallers config.maxDepth g node).length ≤
      (allCallers config.maxDepth g' node).length :=
    (List.subperm_of_subset (allCallers_nodup _ _ _) hcallers).length_le
  refine ⟨hcallers, hmodules, hexports, Int.ofNat_le.mpr hradius, ?_⟩
  refine Config.level_mono (Int.ofNat_le.mpr hradius) (Int.ofNat_le.mpr ?_) id
  exact (List.subperm_of_subset (eraseDups_nodup _) hexports).length_le

/-- The report on a symbol does not shrink when the graph grows, be the symbol new to
the graph or not. -/
theorem reportOn_within (config : Config) (h : g.Within g') (entryPoints : List String)
    (exported : InsertionMap String String) (ref : String) :
    (reportOn config g entryPoints exported ref).Within
      (reportOn config g' entryPoints exported ref) := by
  by_cases hknown : ref ≠ "" ∧ g.contains ref = true
  · rw [reportOn_of_known _ _ _ hknown.1 hknown.2,
      reportOn_of_known _ _ _ hknown.1 (h.contains ref hknown.2)]
    exact ofNode_within config h exported ref ref _
  · rw [reportOn_of_unknown _ _ _ hknown]
    by_cases hknown' : ref ≠ "" ∧ g'.contains ref = true
    · rw [reportOn_of_known _ _ _ hknown'.1 hknown'.2]
      exact isolated_within_ofNode config g' exported ref ref _
    · rw [reportOn_of_unknown _ _ _ hknown']
      exact .refl _

/-! ## More calls -/

/-- Adding calls to a call graph takes nothing out of a report: no caller, no affected
module or export, nothing of the blast radius and no level. -/
theorem reportOn_within_of_more_calls (config : Config) (nodes : List Node)
    {edges edges' : List Edge}
    (hedges : ∀ e ∈ edges, ∃ e' ∈ edges', e'.source = e.source ∧ e'.target = e.target)
    (entryPoints : List String) (exported : InsertionMap String String) (ref : String) :
    (reportOn config (.build nodes edges) entryPoints exported ref).Within
      (reportOn config (.build nodes edges') entryPoints exported ref) :=
  reportOn_within config (CallGraph.build_within (fun _ => rfl) hedges) entryPoints exported ref

/-- A new caller brings its module, a call between symbols that were known before brings
an exported one within the limit, and a repeated call changes nothing. -/
theorem reportOn_within_of_more_calls_shortcut :
    let edges : List Edge :=
      [⟨"m#b", "m#a", 1, false⟩, ⟨"m#c", "m#b", 1, false⟩, ⟨"m#d", "m#c", 1, false⟩]
    let edges' : List Edge :=
      [⟨"m#d", "m#b", 1, false⟩, ⟨"m#d", "m#c", 1, false⟩, ⟨"m#c", "m#b", 1, false⟩,
        ⟨"n#e", "m#a", 1, false⟩, ⟨"m#b", "m#a", 5, false⟩]
    let config : Config := ⟨{ maxDepth := .number 2 }, rfl⟩
    let exported : InsertionMap String String := .ofList [("m#d", "d")]
    let report := reportOn config (.build [] edges) [] exported "m#a"
    let report' := reportOn config (.build [] edges') [] exported "m#a"
    (∀ e ∈ edges, ∃ e' ∈ edges', e'.source = e.source ∧ e'.target = e.target) ∧
      report.Within report' ∧ report.blastRadius = 2 ∧ report'.blastRadius = 4 ∧
      (report.affectedModules, report.affectedExports) = (["m"], []) ∧
      (report'.affectedModules, report'.affectedExports) = (["n", "m"], ["d"]) := by
  intro edges edges' config exported report report'
  have hedges : ∀ e ∈ edges, ∃ e' ∈ edges', e'.source = e.source ∧ e'.target = e.target := by
    decide
  refine ⟨hedges, ?_, by decide +kernel, by decide +kernel, by decide +kernel,
    by decide +kernel⟩
  exact reportOn_within_of_more_calls config [] hedges [] exported "m#a"

/-! ## Other orders -/

/-- Two reports say the same in different orders. -/
structure Report.Reordered (r r' : Report) : Prop where
  directCallers : r.directCallers.Perm r'.directCallers
  transitiveCallers : r.transitiveCallers.Perm r'.transitiveCallers
  affectedModules : r.affectedModules.Perm r'.affectedModules
  affectedExports : r.affectedExports.Perm r'.affectedExports
  blastRadius : r.blastRadius = r'.blastRadius
  level : r.level = r'.level

theorem Report.Reordered.refl (r : Report) : r.Reordered r :=
  ⟨.refl _, .refl _, .refl _, .refl _, rfl, rfl⟩

/-- Graphs within each other have the same links and so the same distances. -/
theorem ofNode_reordered (config : Config) (h : g.Within g') (h' : g'.Within g)
    (exported : InsertionMap String String) (symbolRef node : String) (isEntryPoint : Bool) :
    (Report.ofNode config g exported symbolRef node isEntryPoint).Reordered
      (.ofNode config g' exported symbolRef node isEntryPoint) := by
  have hlinks : g.calls.Links = g'.calls.Links := by
    funext u v
    exact propext ⟨h.links u v, h'.links u v⟩
  have hwithin := ofNode_within config h exported symbolRef node isEntryPoint
  have hwithin' := ofNode_within config h' exported symbolRef node isEntryPoint
  obtain ⟨hdirect, htransitive, _⟩ := List.nodup_append.mp (allCallers_nodup config.maxDepth g node)
  obtain ⟨hdirect', htransitive', _⟩ :=
    List.nodup_append.mp (allCallers_nodup config.maxDepth g' node)
  refine ⟨?_, ?_, ?_, ?_, ?_, ?_⟩
  · refine (List.perm_ext_iff_of_nodup hdirect hdirect').mpr fun n => ?_
    rw [mem_directCallers_iff, mem_directCallers_iff, hlinks]
  · refine (List.perm_ext_iff_of_nodup htransitive htransitive').mpr fun n => ?_
    rw [mem_transitiveCallers_iff, mem_transitiveCallers_iff, hlinks]
  · refine (List.perm_ext_iff_of_nodup (eraseDups_nodup _) (eraseDups_nodup _)).mpr fun m => ?_
    exact ⟨fun hm => hwithin.modules hm, fun hm => hwithin'.modules hm⟩
  · refine (List.perm_ext_iff_of_nodup (eraseDups_nodup _) (eraseDups_nodup _)).mpr fun e => ?_
    exact ⟨fun he => hwithin.exports he, fun he => hwithin'.exports he⟩
  · exact Int.le_antisymm hwithin.radius hwithin'.radius
  · exact Level.rank_injective (Nat.le_antisymm hwithin.level hwithin'.level)

theorem reportOn_reordered_of_within (config : Config) (h : g.Within g') (h' : g'.Within g)
    (entryPoints : List String) (exported : InsertionMap String String) (ref : String) :
    (reportOn config g entryPoints exported ref).Reordered
      (reportOn config g' entryPoints exported ref) := by
  by_cases hknown : ref ≠ "" ∧ g.contains ref = true
  · rw [reportOn_of_known _ _ _ hknown.1 hknown.2,
      reportOn_of_known _ _ _ hknown.1 (h.contains ref hknown.2)]
    exact ofNode_reordered config h h' exported ref ref _
  · have hknown' : ¬ (ref ≠ "" ∧ g'.contains ref = true) :=
      fun hboth => hknown ⟨hboth.1, h'.contains ref hboth.2⟩
    rw [reportOn_of_unknown _ _ _ hknown, reportOn_of_unknown _ _ _ hknown']
    exact .refl _

/-- The order in which symbols and calls are given to a call graph shows in a report at
most as the order of its lists, if no symbol is given twice. -/
theorem reportOn_reordered_of_perm (config : Config) {nodes nodes' : List Node}
    {edges edges' : List Edge} (hids : (nodes.map Node.id).Nodup) (hnodes : nodes.Perm nodes')
    (hedges : edges.Perm edges') (entryPoints : List String)
    (exported : InsertionMap String String) (ref : String) :
    (reportOn config (.build nodes edges) entryPoints exported ref).Reordered
      (reportOn config (.build nodes' edges') entryPoints exported ref) := by
  have hgiven : ∀ ref, CallGraph.given? nodes' ref = CallGraph.given? nodes ref := by
    intro ref
    refine Option.ext fun n => ?_
    have hids' : (nodes'.map Node.id).Nodup := (hnodes.map Node.id).nodup_iff.mp hids
    rw [CallGraph.given?_eq_some_iff hids, CallGraph.given?_eq_some_iff hids', hnodes.mem_iff]
  apply reportOn_reordered_of_within
  · exact CallGraph.build_within hgiven fun e he => ⟨e, hedges.mem_iff.mp he, rfl, rfl⟩
  · refine CallGraph.build_within (fun ref => (hgiven ref).symm) fun e he => ?_
    exact ⟨e, hedges.mem_iff.mpr he, rfl, rfl⟩

/-- Two callers of a symbol, a module of theirs and the callers behind them, given in
one order and in the other. -/
theorem reportOn_reordered_of_perm_diamond :
    let nodes : List Node := [{ id := "b", module := "n" }, { id := "c", module := "m" }]
    let edges : List Edge :=
      [⟨"b", "a", 1, false⟩, ⟨"c", "a", 1, false⟩, ⟨"d", "c", 1, false⟩, ⟨"d", "b", 1, false⟩,
        ⟨"e", "b", 1, false⟩]
    let report := reportOn .default (.build nodes edges) [] ∅ "a"
    let report' := reportOn .default (.build nodes.reverse edges.reverse) [] ∅ "a"
    ((nodes.map Node.id).Nodup ∧ nodes.Perm nodes.reverse ∧ edges.Perm edges.reverse) ∧
      report.Reordered report' ∧
      report.directCallers = ["b", "c"] ∧ report'.directCallers = ["c", "b"] ∧
      report.affectedModules = ["n", "m"] ∧ report'.affectedModules = ["m", "n"] := by
  intro nodes edges report report'
  have hids : (nodes.map Node.id).Nodup := by decide
  have hnodes : nodes.Perm nodes.reverse := (List.reverse_perm nodes).symm
  have hedges : edges.Perm edges.reverse := (List.reverse_perm edges).symm
  refine ⟨⟨hids, hnodes, hedges⟩, ?_, by decide +kernel, by decide +kernel, by decide +kernel,
    by decide +kernel⟩
  exact reportOn_reordered_of_perm .default hids hnodes hedges [] ∅ "a"

end Impact

end ApiDrift
