import ApiDrift.Proofs.Impact.Batch

set_option autoImplicit false

/-!
# What more calls do to the reports on a diff

Added calls leave every report of a diff as large as it was, as long as the symbol still
stands for the node it stood for.  They can bring in the reference of a symbol that was
found by its module and name before; from then on the symbol stands for the new
node, and the callers of the old one are no longer reported.
-/

namespace ApiDrift.Impact

variable {g g' : CallGraph}

/-! ## Reports on one node -/

theorem ofNode_within_or (config : Config) (g : CallGraph) (exported : InsertionMap String String)
    (symbolRef node : String) (isEntryPoint isListed : Bool) :
    (Report.ofNode config g exported symbolRef node isEntryPoint).Within
      (.ofNode config g exported symbolRef node (isEntryPoint || isListed)) where
  callers := List.Subset.refl _
  modules := List.Subset.refl _
  exports := List.Subset.refl _
  radius := Int.le_refl _
  level := Config.level_mono (Int.le_refl _) (Int.le_refl _) (Bool.or_inl ·)

theorem isolated_within_ofNode? (config : Config) (g : CallGraph) (entryPoints : List String)
    (exported : InsertionMap String String) (symbolRef : String) (node? : Option String) :
    (Report.isolated config symbolRef (entryPoints.contains symbolRef)).Within
      (.ofNode? config g entryPoints exported symbolRef node?) := by
  cases node? with
  | none => exact .refl _
  | some node =>
    exact (isolated_within_ofNode config g exported symbolRef node _).trans
      (ofNode_within_or config g exported symbolRef node _ _)

theorem ofNode?_within (config : Config) (h : g.Within g') (entryPoints : List String)
    (exported : InsertionMap String String) (symbolRef : String) (node? : Option String) :
    (Report.ofNode? config g entryPoints exported symbolRef node?).Within
      (.ofNode? config g' entryPoints exported symbolRef node?) := by
  cases node? with
  | none => exact .refl _
  | some node => exact ofNode_within config h exported symbolRef node _

/-! ## Main statement -/

/-- A change stands for a node of one graph and, in another one, for a node that the first
one does not know: its own reference or the one of its module and name. -/
def Displaced (g g' : CallGraph) (change : Change) : Prop :=
  ∃ node node', nodeOf? g change = some node ∧ nodeOf? g' change = some node' ∧
    g.contains node' = false ∧
    (node' = change.symbolRef ∨ node' = Reference.ofName change.modulePath change.symbolName)

/-- A report does not shrink with more calls unless they give its symbol a new node. -/
theorem ofNode?_nodeOf?_within (config : Config) {nodes : List Node} {edges edges' : List Edge}
    (h : (CallGraph.build nodes edges).Within (.build nodes edges')) (entryPoints : List String)
    (exported : InsertionMap String String) {change : Change}
    (hplaced : ¬ Displaced (.build nodes edges) (.build nodes edges') change) :
    (Report.ofNode? config (.build nodes edges) entryPoints exported change.symbolRef
        (nodeOf? (.build nodes edges) change)).Within
      (.ofNode? config (.build nodes edges') entryPoints exported change.symbolRef
        (nodeOf? (.build nodes edges') change)) := by
  by_cases hknown : ∀ node, nodeOf? (.build nodes edges') change = some node →
      (CallGraph.build nodes edges).contains node = true
  · have hsame : nodeOf? (.build nodes edges) change = nodeOf? (.build nodes edges') change :=
      CallGraph.find?_build_eq_of_known h hknown
    rw [hsame]
    exact ofNode?_within config h entryPoints exported change.symbolRef _
  -- a change that goes over to a new node and is not displaced stood for none before
  · obtain ⟨node', hnode', hnew⟩ : ∃ node', nodeOf? (.build nodes edges') change = some node' ∧
        (CallGraph.build nodes edges).contains node' = false := by
      simpa using hknown
    have hlost : nodeOf? (.build nodes edges) change = none := by
      refine Option.eq_none_iff_forall_ne_some.mpr fun node hnode => hplaced ?_
      exact ⟨node, node', hnode, hnode', hnew, CallGraph.eq_reference_of_find?_build h hnode' hnew⟩
    rw [hlost]
    exact isolated_within_ofNode? config _ entryPoints exported change.symbolRef _

/-- Adding calls takes nothing out of the report of any change of a diff, unless they bring in
a new node that the first change with its reference stands for from then on. -/
theorem reportAll_within_of_more_calls (config : Config) (nodes : List Node)
    {edges edges' : List Edge}
    (hedges : ∀ e ∈ edges, ∃ e' ∈ edges', e'.source = e.source ∧ e'.target = e.target)
    (entryPoints : List String) (diff : Diff) :
    let g := CallGraph.build nodes edges
    let g' := CallGraph.build nodes edges'
    ∀ change ∈ diff.changes, ∃ lead report report',
      diff.changes.find? (fun c => c.symbolRef = change.symbolRef) = some lead ∧
      (reportAll config g entryPoints diff).get? change.symbolRef = some report ∧
      (reportAll config g' entryPoints diff).get? change.symbolRef = some report' ∧
      (¬ Displaced g g' lead → report.Within report') := by
  intro g g' change hchange
  obtain ⟨lead, hlead, hsame⟩ := exists_lead_of_mem (List.mem_map_of_mem hchange)
  refine ⟨lead, _, _, hlead, get?_reportAll config g entryPoints hlead,
    get?_reportAll config g' entryPoints hlead, fun hplaced => ?_⟩
  rw [← hsame]
  exact ofNode?_nodeOf?_within config (CallGraph.build_within (fun _ => rfl) hedges) entryPoints _
    hplaced

/-- A new caller counts, and the other change goes over to the node that a call of its own
brings in. -/
theorem reportAll_within_of_more_calls_two_modules :
    let exporting (path name id : String) : Module :=
      ⟨path, [{ name := name, symbol := some { id := id, name := name } }], "", by simp⟩
    let older : Snapshot :=
      ⟨"older", "", "", [exporting "m" "f" "#f", exporting "n" "g" "#g"], none, {},
        by simp [exporting]⟩
    let diff := Diff.between .heuristic older (.empty "newer" "")
    let edges : List Edge := [⟨"a", "m#f", 1, false⟩, ⟨"a", "n#g", 1, false⟩]
    let edges' : List Edge := edges ++ [⟨"b", "n#g", 1, false⟩, ⟨"#f", "c", 1, false⟩]
    let g := CallGraph.build [] edges
    let g' := CallGraph.build [] edges'
    (∀ e ∈ edges, ∃ e' ∈ edges', e'.source = e.source ∧ e'.target = e.target) ∧
      (∃ change ∈ diff.changes, change.symbolRef = "#f" ∧ Displaced g g' change) ∧
      ∃ report report', (reportAll .default g [] diff).get? "#g" = some report ∧
        (reportAll .default g' [] diff).get? "#g" = some report' ∧ report.Within report' ∧
        report.directCallers = ["a"] ∧ report'.directCallers = ["a", "b"] := by
  intro exporting older diff edges edges' g g'
  have hedges : ∀ e ∈ edges, ∃ e' ∈ edges', e'.source = e.source ∧ e'.target = e.target := by
    decide
  obtain ⟨change, hchange, hsame⟩ : ∃ change ∈ diff.changes, change.symbolRef = "#g" := by
    decide +kernel
  obtain ⟨lead, report, report', hlead, hreport, hreport', hwithin⟩ :=
    reportAll_within_of_more_calls .default [] hedges [] diff change hchange
  rw [hsame] at hlead hreport hreport'
  obtain ⟨moved, hmoved, href, hnode, hnode'⟩ : ∃ change ∈ diff.changes,
      change.symbolRef = "#f" ∧ nodeOf? g change = some "m#f" ∧ nodeOf? g' change = some "#f" := by
    decide +kernel
  have hplaced : ¬ Displaced g g' lead := by
    have hstays : (diff.changes.find? fun c => c.symbolRef = "#g").bind (nodeOf? g') =
        some "n#g" := by
      decide +kernel
    rw [hlead, Option.bind_some] at hstays
    rintro ⟨_, node', _, hfound, hnew, _⟩
    cases hfound.symm.trans hstays
    exact absurd hnew (by decide +kernel)
  have hcallers : ((reportAll .default g [] diff).get? "#g").map Report.directCallers =
      some ["a"] := by
    decide +kernel
  have hcallers' : ((reportAll .default g' [] diff).get? "#g").map Report.directCallers =
      some ["a", "b"] := by
    decide +kernel
  rw [hreport, Option.map_some, Option.some.injEq] at hcallers
  rw [hreport', Option.map_some, Option.some.injEq] at hcallers'
  refine ⟨hedges, ⟨moved, hmoved, href, "m#f", "#f", hnode, hnode', by decide +kernel, ?_⟩, ?_⟩
  · exact .inl href.symm
  · exact ⟨report, report', hreport, hreport', hwithin hplaced, hcallers, hcallers'⟩

/-- A symbol that is called under the reference of its module and name loses this caller when a
call is added that it makes under its own reference. -/
theorem reportAll_radius_not_always_mono :
    ¬ ∀ (config : Config) (diff : Diff) (nodes : List Node) (edges edges' : List Edge)
        (entryPoints : List String),
      (∀ e ∈ edges, ∃ e' ∈ edges', e'.source = e.source ∧ e'.target = e.target) →
      ∀ change ∈ diff.changes, ∃ report report',
        (reportAll config (.build nodes edges) entryPoints diff).get? change.symbolRef =
          some report ∧
        (reportAll config (.build nodes edges') entryPoints diff).get? change.symbolRef =
          some report' ∧
        report.blastRadius ≤ report'.blastRadius := by
  intro h
  let f : Export := { name := "f", symbol := some { id := "#f", name := "f" } }
  let older : Snapshot := ⟨"older", "", "", [⟨"m", [f], "", by simp⟩], none, {}, by simp⟩
  let diff := Diff.between .heuristic older (.empty "newer" "")
  let edges : List Edge := [⟨"n#a", "m#f", 1, false⟩]
  let edges' : List Edge := edges ++ [⟨"#f", "n#b", 1, false⟩]
  obtain ⟨change, hchange, hsame⟩ : ∃ change ∈ diff.changes, change.symbolRef = "#f" := by
    decide +kernel
  obtain ⟨report, report', hreport, hreport', hle⟩ :=
    h .default diff [] edges edges' [] (by decide) change hchange
  have hone : ((reportAll .default (.build [] edges) [] diff).get? "#f").map Report.blastRadius =
      some 1 := by
    decide +kernel
  have hzero : ((reportAll .default (.build [] edges') [] diff).get? "#f").map
      Report.blastRadius = some 0 := by
    decide +kernel
  rw [← hsame, hreport, Option.map_some, Option.some.injEq] at hone
  rw [← hsame, hreport', Option.map_some, Option.some.injEq] at hzero
  rw [hone, hzero] at hle
  exact absurd hle (by decide)

end ApiDrift.Impact
