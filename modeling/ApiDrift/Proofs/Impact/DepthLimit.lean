import ApiDrift.CallGraph.Assembly
import ApiDrift.Impact.Report
import ApiDrift.Proofs.CallGraph.Queue
import ApiDrift.Proofs.Distinct
import ApiDrift.Proofs.Impact.Thresholds

set_option autoImplicit false

/-!
# Following callers farther

A report lists callers in the order in which a search with a queue comes to them.  A limit on
the number of steps ends the search early but changes nothing before that, so what a report
lists under a limit is where the lists under a farther one begin, and its numbers are not
larger.
-/

namespace ApiDrift.Impact

variable {config config' : Config} {limit limit' : Option Nat}

/-! ## Callers -/

/-- The transitive callers are what a search with a queue comes to from the direct ones. -/
theorem transitiveCallers_eq_discoveries (limit : Option Nat) (g : CallGraph) (node : String) :
    transitiveCallers limit g node =
      discoveries g.callers limit (sweep (node :: directCallers g node) g.calls.vertexSet).2
        ((directCallers g node).map fun n => (n, 1)) :=
  g.calls.flatten_callerLayers limit node (directCallers g node)

theorem transitiveCallers_prefix_of_noFarther (h : NoFarther limit limit') (g : CallGraph)
    (node : String) : transitiveCallers limit g node <+: transitiveCallers limit' g node := by
  rw [transitiveCallers_eq_discoveries, transitiveCallers_eq_discoveries]
  exact discoveries_prefix_of_noFarther h _ _ _ _

theorem allCallers_prefix_of_noFarther (h : NoFarther limit limit') (g : CallGraph)
    (node : String) : allCallers limit g node <+: allCallers limit' g node :=
  (List.prefix_append_right_inj _).mpr (transitiveCallers_prefix_of_noFarther h g node)

/-- What the first callers affect is affected first. -/
theorem affected_prefix_of_callers {callers callers' : List String} (h : callers <+: callers')
    (f : String → Option String) :
    (callers.filterMap f).eraseDups <+: (callers'.filterMap f).eraseDups :=
  prefix_eraseDups (h.filterMap f)

/-! ## Configurations -/

/-- A configuration has the settings of another one, but for a limit that lets callers be
followed at least as far. -/
structure Config.Deepens (config' config : Config) : Prop where
  others : ∃ limit, config'.settings = { config.settings with maxDepth := limit }
  depth : NoFarther config.maxDepth config'.maxDepth

/-- The limit has no part in how numbers are graded. -/
theorem Config.Deepens.level_eq (h : config'.Deepens config) : config'.level = config.level := by
  obtain ⟨limit, hsettings⟩ := h.others
  clear h
  obtain ⟨settings', _⟩ := config'
  change settings' = _ at hsettings
  subst hsettings
  rfl

/-! ## Reports -/

/-- The lists of a report are where those of another one begin, and its numbers are not
larger; the direct callers are the same. -/
structure Report.PrefixOf (r r' : Report) : Prop where
  directCallers : r.directCallers = r'.directCallers
  transitiveCallers : r.transitiveCallers <+: r'.transitiveCallers
  affectedModules : r.affectedModules <+: r'.affectedModules
  affectedExports : r.affectedExports <+: r'.affectedExports
  blastRadius : r.blastRadius ≤ r'.blastRadius
  level : r.level.rank ≤ r'.level.rank

theorem Report.PrefixOf.refl (r : Report) : r.PrefixOf r :=
  ⟨rfl, List.prefix_refl _, List.prefix_refl _, List.prefix_refl _, Int.le_refl _, Nat.le_refl _⟩

theorem ofNode_prefixOf (h : config'.Deepens config) (g : CallGraph)
    (exported : InsertionMap String String) (symbolRef node : String) (isEntryPoint : Bool) :
    (Report.ofNode config g exported symbolRef node isEntryPoint).PrefixOf
      (.ofNode config' g exported symbolRef node isEntryPoint) := by
  have hcallers := allCallers_prefix_of_noFarther h.depth g node
  have hexports := affected_prefix_of_callers hcallers (exportName? exported g)
  have hradius : ((allCallers config.maxDepth g node).length : Int) ≤
      (allCallers config'.maxDepth g node).length := Int.ofNat_le.mpr hcallers.length_le
  refine ⟨rfl, transitiveCallers_prefix_of_noFarther h.depth g node,
    affected_prefix_of_callers hcallers g.moduleOf?, hexports, hradius, ?_⟩
  rw [Report.ofNode, Report.ofNode, h.level_eq]
  exact Config.level_mono hradius (Int.ofNat_le.mpr hexports.length_le) id

theorem ofNode?_prefixOf (h : config'.Deepens config) (g : CallGraph) (entryPoints : List String)
    (exported : InsertionMap String String) (symbolRef : String) (node? : Option String) :
    (Report.ofNode? config g entryPoints exported symbolRef node?).PrefixOf
      (.ofNode? config' g entryPoints exported symbolRef node?) := by
  cases node? with
  | none =>
    rw [Report.ofNode?, Report.ofNode?, Report.isolated, Report.isolated, h.level_eq]
    exact .refl _
  | some node => exact ofNode_prefixOf h g exported symbolRef node _

/-- Following callers farther only adds to the ends of the lists of a report, so neither the
blast radius nor the level gets smaller. -/
theorem reportOn_prefixOf_of_deepens (h : config'.Deepens config) (g : CallGraph)
    (entryPoints : List String) (exported : InsertionMap String String) (symbolRef : String) :
    (reportOn config g entryPoints exported symbolRef).PrefixOf
      (reportOn config' g entryPoints exported symbolRef) :=
  ofNode?_prefixOf h g entryPoints exported symbolRef _

/-- On a cycle of four symbols the farthest caller is the third step and only comes in
without a limit; with it a second export is affected, which raises the level by two. -/
theorem reportOn_prefixOf_of_deepens_cycle :
    let config : Config := ⟨{ maxDepth := .number 2 }, rfl⟩
    let g := CallGraph.build []
      [⟨"m#b", "m#a", 1, false⟩, ⟨"m#c", "m#b", 1, false⟩, ⟨"n#d", "m#c", 1, false⟩,
        ⟨"m#a", "n#d", 1, false⟩]
    let exported : InsertionMap String String := .ofList [("n#d", "d"), ("m#b", "b")]
    let report := reportOn config g [] exported "m#a"
    let report' := reportOn .default g [] exported "m#a"
    Config.default.Deepens config ∧ report.PrefixOf report' ∧
      (report.transitiveCallers, report.affectedExports, report.level) =
        (["m#c"], ["b"], .low) ∧
      (report'.transitiveCallers, report'.affectedExports, report'.level) =
        (["m#c", "n#d"], ["b", "d"], .high) := by
  intro config g exported report report'
  have hdeepens : Config.default.Deepens config := ⟨⟨.absent, rfl⟩, fun _ h => nomatch h⟩
  refine ⟨hdeepens, ?_, by decide +kernel, by decide +kernel⟩
  exact reportOn_prefixOf_of_deepens hdeepens g [] exported "m#a"

end ApiDrift.Impact
