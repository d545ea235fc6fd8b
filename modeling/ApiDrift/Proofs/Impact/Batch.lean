import ApiDrift.Proofs.Distinct
import ApiDrift.Proofs.Impact.Resolution

set_option autoImplicit false

/-!
# The reports on a diff are the reports on its symbols

The changes of a diff are reported in one pass, once for each symbol reference.  A reference
that the call graph knows gets the report that the symbol has on its own.  For any other
reference the first change that carries it decides which node the symbol stands for, and the
report is the one on that node, sent to the reference of the change.
-/

namespace ApiDrift

/-- Claims leave the keys in the order in which they are first made. -/
theorem InsertionMap.keys_ofClaims {α β : Type} [DecidableEq α] (entries : List (α × β)) :
    (ofClaims entries).keys = (entries.map Prod.fst).eraseDups := by
  rw [ofClaims, view_foldl keys _ Prod.fst (fun m e => m.keys_claim e.1 e.2) ∅ List.nodup_nil]
  rfl

namespace Impact

variable {config : Config} {g : CallGraph} {entryPoints : List String} {diff : Diff} {ref : String}

/-! ## Leading changes -/

theorem keys_leadChanges (changes : List Change) :
    (leadChanges changes).keys = (changes.map Change.symbolRef).eraseDups := by
  rw [leadChanges, InsertionMap.keys_ofClaims, List.map_map]
  rfl

/-- Of the changes with a reference the first one leads. -/
theorem get?_leadChanges (changes : List Change) (ref : String) :
    (leadChanges changes).get? ref = changes.find? fun c => c.symbolRef = ref := by
  rw [leadChanges, InsertionMap.get?_ofClaims, List.find?_map, Option.map_map]
  exact Option.map_id'

theorem mem_keys_reportAll_iff :
    ref ∈ (reportAll config g entryPoints diff).keys ↔
      ref ∈ diff.changes.map Change.symbolRef := by
  rw [reportAll, InsertionMap.keys_mapValues, keys_leadChanges, List.mem_eraseDups]

/-- What is reported under a reference is read off its leading change. -/
theorem get?_reportAll (config : Config) (g : CallGraph) (entryPoints : List String)
    {lead : Change} (hlead : diff.changes.find? (fun c => c.symbolRef = ref) = some lead) :
    (reportAll config g entryPoints diff).get? ref =
      some (.ofNode? config g entryPoints (exportIndex [diff.newer, diff.older]) ref
        (nodeOf? g lead)) := by
  rw [reportAll, InsertionMap.get?_mapValues, get?_leadChanges, hlead, Option.map_some]

theorem exists_lead_of_mem (h : ref ∈ diff.changes.map Change.symbolRef) :
    ∃ lead, diff.changes.find? (fun c => c.symbolRef = ref) = some lead ∧
      lead.symbolRef = ref := by
  have hfound : diff.changes.find? (fun c => c.symbolRef = ref) ≠ none :=
    fun hnone => Keyed.find?_eq_none_iff.mp hnone h
  obtain ⟨lead, hlead⟩ := Option.ne_none_iff_exists'.mp hfound
  exact ⟨lead, hlead, by simpa using List.find?_some hlead⟩

/-! ## Reports for other references -/

/-- The report on a node, sent to a symbol that stands for it.  The level is graded anew,
since the symbol may be an entry point where its node is none. -/
def Report.readdressed (r : Report) (config : Config) (symbolRef : String)
    (isEntryPoint : Bool) : Report :=
  { r with
    symbolRef := symbolRef
    level := config.level r.blastRadius r.affectedExports.length isEntryPoint }

/-- The report of a symbol that stands for a known node is the one on the node. -/
theorem ofNode?_some_eq_readdressed (config : Config) (entryPoints : List String)
    (exported : InsertionMap String String) (ref : String) {node : String}
    (hnonempty : node ≠ "") (hknown : g.contains node = true) :
    Report.ofNode? config g entryPoints exported ref (some node) =
      (reportOn config g entryPoints exported node).readdressed config ref
        (entryPoints.contains ref || entryPoints.contains node) := by
  rw [reportOn_of_known _ _ _ hnonempty hknown]
  rfl

/-! ## Main statement -/

/-- All changes of a diff are reported, each reference once and in the order of first
occurrence.  A reference that the graph knows has the report of the symbol on its own; one
that it does not know has the report on the node found by module and name for the first
change with the reference, or no callers if there is no such node. -/
theorem reportAll_agrees_with_reportOn (config : Config) (comparator : TypeComparator)
    (older newer : Snapshot) {nodes : List Node} {edges : List Edge}
    (hids : "" ∉ (CallGraph.build nodes edges).nodes.keys) (entryPoints : List String) :
    let g := CallGraph.build nodes edges
    let diff := Diff.between comparator older newer
    let exported := exportIndex [newer, older]
    let reports := reportAll config g entryPoints diff
    reports.keys = (diff.changes.map Change.symbolRef).eraseDups ∧
    (∀ change ∈ diff.changes, change.symbolRef ≠ "" → g.contains change.symbolRef = true →
      reports.get? change.symbolRef =
        some (reportOn config g entryPoints exported change.symbolRef)) ∧
    (∀ ref ∈ reports.keys, g.contains ref = false →
      ∃ lead, diff.changes.find? (fun c => c.symbolRef = ref) = some lead ∧
        nodeOf? g lead = g.findNamed? lead.modulePath lead.symbolName ∧
        (∀ node, nodeOf? g lead = some node →
          reports.get? ref = some ((reportOn config g entryPoints exported node).readdressed config
            ref (entryPoints.contains ref || entryPoints.contains node))) ∧
        (nodeOf? g lead = none →
          reports.get? ref = some (.isolated config ref (entryPoints.contains ref)))) := by
  intro g diff exported reports
  refine ⟨?_, ?_, ?_⟩
  · exact (InsertionMap.keys_mapValues _ _).trans (keys_leadChanges _)
  · intro change hchange hnonempty hknown
    obtain ⟨lead, hlead, hsame⟩ := exists_lead_of_mem (List.mem_map_of_mem hchange)
    have hnode : nodeOf? g lead = some change.symbolRef := by
      rw [nodeOf?, hsame]
      exact find?_of_contains hnonempty hknown
    rw [get?_reportAll config g entryPoints hlead, hnode, reportOn,
      find?_of_contains hnonempty hknown]
    rfl
  · intro ref href hunknown
    obtain ⟨lead, hlead, hsame⟩ := exists_lead_of_mem (mem_keys_reportAll_iff.mp href)
    have hreport := get?_reportAll config g entryPoints hlead
    refine ⟨lead, hlead, ?_, fun node hnode => ?_, fun hnode => ?_⟩
    · refine find?_of_unknown fun hboth => ?_
      rw [hsame, hunknown] at hboth
      exact Bool.false_ne_true hboth.2
    · -- an assembled graph knows what it finds, so the node has this report on its own as well
      have hknown : g.contains node = true := CallGraph.contains_of_find?_build hnode
      have hnonempty : node ≠ "" := by
        rintro rfl
        exact hids (CallGraph.contains_build_iff_mem_keys.mp hknown)
      rw [hnode, ofNode?_some_eq_readdressed config entryPoints _ ref hnonempty hknown] at hreport
      exact hreport
    · rw [hnode] at hreport
      exact hreport

/-- Of four references that go away one is a node of the graph, one stands for the node of its
module and name, one for a record of them and one for nothing.  A module that passes a
symbol on under its reference has no say. -/
theorem reportAll_agrees_with_reportOn_removed :
    let exporting (path name id : String) : Module :=
      ⟨path, [{ name := name, symbol := some { id := id, name := name } }], "", by simp⟩
    let older : Snapshot :=
      ⟨"older", "", "", [exporting "m" "f" "#f", exporting "n" "g" "#g", exporting "o" "h" "#h",
        exporting "p" "k" "#k", exporting "q" "l" "#f"], none, {}, by simp [exporting]⟩
    let newer : Snapshot := .empty "newer" ""
    let g := CallGraph.build [{ id := "r", symbol := "h", module := "o" }]
      [⟨"a", "m#f", 1, false⟩, ⟨"b", "#g", 1, false⟩, ⟨"c", "r", 1, false⟩, ⟨"d", "q#l", 1, false⟩]
    let diff := Diff.between .heuristic older newer
    let exported := exportIndex [newer, older]
    let reports := reportAll .default g ["r"] diff
    "" ∉ g.nodes.keys ∧ reports.keys = ["#f", "#g", "#h", "#k"] ∧
      reports.get? "#f" =
        some ((reportOn .default g ["r"] exported "m#f").readdressed .default "#f" false) ∧
      reports.get? "#g" = some (reportOn .default g ["r"] exported "#g") ∧
      reports.get? "#h" =
        some ((reportOn .default g ["r"] exported "r").readdressed .default "#h" true) ∧
      reports.get? "#k" = some (.isolated .default "#k" false) := by
  intro exporting older newer g diff exported reports
  have hids : "" ∉ g.nodes.keys := by decide +kernel
  obtain ⟨hkeys, hknown, hother⟩ :=
    reportAll_agrees_with_reportOn .default .heuristic older newer hids ["r"]
  have hrefs : reports.keys = ["#f", "#g", "#h", "#k"] := hkeys.trans (by decide +kernel)
  have hunknown : ∀ ref ∈ ["#f", "#h", "#k"], ref ∈ reports.keys ∧ g.contains ref = false := by
    rw [hrefs]
    decide +kernel
  have hnodes : ∀ ref lead, diff.changes.find? (fun c => c.symbolRef = ref) = some lead →
      nodeOf? g lead =
        (diff.changes.find? fun c => c.symbolRef = ref).bind (nodeOf? g) := by
    intro ref lead hlead
    rw [hlead, Option.bind_some]
  refine ⟨hids, hrefs, ?_, ?_, ?_, ?_⟩
  · obtain ⟨hkey, hnew⟩ := hunknown "#f" (by simp)
    obtain ⟨lead, hlead, _, hreport, _⟩ := hother "#f" hkey hnew
    exact hreport "m#f" ((hnodes "#f" lead hlead).trans (by decide +kernel))
  · obtain ⟨change, hchange, hsame⟩ : ∃ change ∈ diff.changes, change.symbolRef = "#g" := by
      decide +kernel
    have hreport := hknown change hchange
    rw [hsame] at hreport
    exact hreport (by decide) (by decide +kernel)
  · obtain ⟨hkey, hnew⟩ := hunknown "#h" (by simp)
    obtain ⟨lead, hlead, _, hreport, _⟩ := hother "#h" hkey hnew
    exact hreport "r" ((hnodes "#h" lead hlead).trans (by decide +kernel))
  · obtain ⟨hkey, hnew⟩ := hunknown "#k" (by simp)
    obtain ⟨lead, hlead, _, _, hreport⟩ := hother "#k" hkey hnew
    exact hreport ((hnodes "#k" lead hlead).trans (by decide +kernel))

end Impact

end ApiDrift
