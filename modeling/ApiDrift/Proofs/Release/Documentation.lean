import ApiDrift.Proofs.Release.Grouping
import ApiDrift.Proofs.Signature.Documentation

set_option autoImplicit false

/-!
# Diffs without documentation

A bare snapshot holds what callers depend on: paths, names, and bare symbols.  Two
snapshots that differ in documentation and metadata only have the same bare snapshot.
Every stage of a diff, run on bare snapshots, gives the bare form of what it gives on the
documented ones, so documentation has no say in the outcome.
-/

namespace ApiDrift

/-! ## Bare snapshots -/

/-- An export without its documentation and without how it is exported. -/
def Export.bare (e : Export) : Export where
  name := e.name
  isDefault := false
  isTypeOnly := false
  symbol := e.symbol.map Symbol.bare

/-- A module without its hash and the documentation of its exports. -/
def Module.bare (m : Module) : Module where
  path := m.path
  exports := m.exports.map Export.bare
  hash := ""
  names_nodup := by
    rw [List.map_map]
    exact m.names_nodup

/-- A snapshot without its metadata and the documentation of its modules. -/
def Snapshot.bare (s : Snapshot) : Snapshot where
  id := ""
  createdAt := ""
  workspaceUri := ""
  modules := s.modules.map Module.bare
  tag := none
  statistics := {}
  paths_nodup := by
    rw [List.map_map]
    exact s.paths_nodup

theorem Module.exportNames_bare (m : Module) : m.bare.exportNames = m.exportNames := by
  rw [exportNames, bare, List.map_map]
  rfl

theorem Module.export?_bare (m : Module) (name : String) :
    m.bare.export? name = (m.export? name).map Export.bare := by
  rw [export?, bare, List.find?_map]
  rfl

theorem Snapshot.paths_bare (s : Snapshot) : s.bare.paths = s.paths := by
  rw [paths, bare, List.map_map]
  rfl

theorem Snapshot.module?_bare (s : Snapshot) (path : String) :
    s.bare.module? path = (s.module? path).map Module.bare := by
  rw [module?, bare, List.find?_map]
  rfl

/-! ## Bare matches and changes -/

/-- A match with the documentation of its exports left out. -/
def Match.bare (entry : Match) : Match :=
  { entry with
    before := entry.before.map Export.bare
    after := entry.after.map Export.bare }

/-- A matched module with the documentation of its exports left out. -/
def ModuleMatch.bare (m : ModuleMatch) : ModuleMatch :=
  { m with entries := m.entries.map Match.bare }

/-- A change with the documentation of its versions left out.  Its kind, path, name,
reference, flag and details stay as they are. -/
def Change.bare (change : Change) : Change :=
  { change with
    before := change.before.map Symbol.bare
    after := change.after.map Symbol.bare }

/-- A module change with the documentation of its changes left out.  Its path, status and
flag stay as they are. -/
def ModuleChange.bare (entry : ModuleChange) : ModuleChange :=
  { entry with changes := entry.changes.map Change.bare }

/-! ## Matching -/

theorem Match.ofSides_bare (path name : String) (before after : Option Export) :
    ofSides path name (before.map Export.bare) (after.map Export.bare) =
      (ofSides path name before after).bare := by
  cases before <;> cases after <;> rfl

namespace ModuleMatch

theorem exportNames_bare (m : Option Module) :
    exportNames (m.map Module.bare) = exportNames m := by
  cases m with
  | none => rfl
  | some m => exact m.exportNames_bare

theorem bind_export?_bare (m : Option Module) (name : String) :
    (m.map Module.bare).bind (·.export? name) = (m.bind (·.export? name)).map Export.bare := by
  cases m with
  | none => rfl
  | some m => exact m.export?_bare name

theorem matchExports_bare (path : String) (before after : Option Module) :
    matchExports path (before.map Module.bare) (after.map Module.bare) =
      (matchExports path before after).map Match.bare := by
  rw [matchExports, matchExports, exportNames_bare, exportNames_bare, List.map_map]
  refine List.map_congr_left fun name _ => ?_
  rw [bind_export?_bare, bind_export?_bare]
  exact Match.ofSides_bare path name _ _

theorem ofSides_bare (path : String) (before after : Option Module) :
    ofSides path (before.map Module.bare) (after.map Module.bare) =
      (ofSides path before after).bare := by
  have hentries := matchExports_bare path before after
  have hhad : ((before.map Module.bare).any fun m => !m.exports.isEmpty) =
      before.any fun m => !m.exports.isEmpty := by
    cases before with
    | none => rfl
    | some m => exact congrArg (!·) List.isEmpty_map
  unfold ofSides
  rw [hentries, hhad]
  cases before <;> cases after <;> rfl

end ModuleMatch

theorem Snapshot.matchModules_bare (older newer : Snapshot) :
    older.bare.matchModules newer.bare = (older.matchModules newer).map ModuleMatch.bare := by
  rw [matchModules, matchModules, paths_bare, paths_bare, List.map_map]
  refine List.map_congr_left fun path _ => ?_
  rw [module?_bare, module?_bare]
  exact ModuleMatch.ofSides_bare path _ _

/-! ## Changes -/

theorem symbol_bare (e : Option Export) :
    (e.map Export.bare).bind Export.symbol = (e.bind Export.symbol).map Symbol.bare := by
  cases e <;> rfl

/-- The reference of a symbol is its id, or made of its path and name. -/
theorem symbolRef_bare (path name : String) (exports : List (Option Export)) :
    symbolRef path name (exports.map (Option.map Export.bare)) = symbolRef path name exports := by
  have hsymbols : (fun e => e.bind Export.symbol) ∘ Option.map Export.bare =
      Option.map Symbol.bare ∘ fun e => e.bind Export.symbol :=
    funext symbol_bare
  rw [symbolRef, List.findSome?_map, hsymbols, ← List.map_findSome?, Option.map_map]
  rfl

namespace Match

theorem addition_bare (entry : Match) : entry.bare.addition = entry.addition.bare := by
  have href : symbolRef entry.bare.modulePath entry.bare.name [entry.bare.after] =
      symbolRef entry.modulePath entry.name [entry.after] :=
    symbolRef_bare entry.modulePath entry.name [entry.after]
  have hafter : entry.bare.after.bind Export.symbol =
      (entry.after.bind Export.symbol).map Symbol.bare := symbol_bare entry.after
  rw [addition, href, hafter]
  rfl

theorem removal_bare (entry : Match) : entry.bare.removal = entry.removal.bare := by
  have href : symbolRef entry.bare.modulePath entry.bare.name [entry.bare.before] =
      symbolRef entry.modulePath entry.name [entry.before] :=
    symbolRef_bare entry.modulePath entry.name [entry.before]
  have hbefore : entry.bare.before.bind Export.symbol =
      (entry.before.bind Export.symbol).map Symbol.bare := symbol_bare entry.before
  rw [removal, href, hbefore]
  rfl

theorem modification_bare (entry : Match) (before after : Symbol) (details : List Detail) :
    entry.bare.modification before.bare after.bare details =
      (entry.modification before after details).bare := by
  have href : symbolRef entry.bare.modulePath entry.bare.name
      [entry.bare.after, entry.bare.before] =
        symbolRef entry.modulePath entry.name [entry.after, entry.before] :=
    symbolRef_bare entry.modulePath entry.name [entry.after, entry.before]
  rw [modification, href]
  rfl

theorem versions?_bare (entry : Match) :
    entry.bare.versions? =
      entry.versions?.map fun (before, after) => (before.bare, after.bare) := by
  have hbefore : entry.bare.before.bind Export.symbol =
      (entry.before.bind Export.symbol).map Symbol.bare := symbol_bare entry.before
  have hafter : entry.bare.after.bind Export.symbol =
      (entry.after.bind Export.symbol).map Symbol.bare := symbol_bare entry.after
  rw [versions?, hbefore, hafter, versions?]
  cases entry.before.bind Export.symbol <;> cases entry.after.bind Export.symbol <;> rfl

/-- A bare match changes as the documented one does. -/
theorem change?_bare (comparator : TypeComparator) (entry : Match) :
    entry.bare.change? comparator = (entry.change? comparator).map Change.bare := by
  have hsame : entry.bare.status = entry.status := rfl
  rw [change?, change?, hsame]
  cases entry.status with
  | added => exact congrArg some entry.addition_bare
  | removed => exact congrArg some entry.removal_bare
  | matched =>
    dsimp only
    rw [versions?_bare]
    cases entry.versions? with
    | none => rfl
    | some versions =>
      obtain ⟨before, after⟩ := versions
      dsimp only [Option.map_some, Option.bind_some]
      rw [Signature.compareSymbols_bare]
      cases Signature.compareSymbols comparator before after with
      | nil => rfl
      | cons d details => exact congrArg some (modification_bare entry before after _)

end Match

theorem ModuleMatch.changes_bare (comparator : TypeComparator) (m : ModuleMatch) :
    m.bare.changes comparator = (m.changes comparator).map Change.bare := by
  rw [changes, changes, bare, List.filterMap_map, List.map_filterMap]
  exact List.filterMap_congr fun entry _ => Match.change?_bare comparator entry

/-- The entry of a module is made of its path, its status and its changes. -/
theorem ModuleMatch.moduleChange?_bare (m : ModuleMatch) (all : List Change) :
    m.bare.moduleChange? (all.map Change.bare) = (m.moduleChange? all).map ModuleChange.bare := by
  have hown : ((all.map Change.bare).filter fun change => change.modulePath == m.modulePath) =
      (all.filter fun change => change.modulePath == m.modulePath).map Change.bare := by
    rw [List.filter_map]
    rfl
  have hsame : m.bare.status = m.status := rfl
  have hpath : m.bare.modulePath = m.modulePath := rfl
  dsimp only [moduleChange?]
  -- whether a module is listed and breaks callers is asked of its changes, bare or not
  rw [hpath, hown, hsame, List.isEmpty_map, List.any_map]
  cases m.status with
  | added => rfl
  | removed => rfl
  | changed =>
    dsimp only
    split <;> rfl

/-! ## Bumps and tallies -/

theorem Bump.ofChanges_bare (changes : List Change) :
    ofChanges (changes.map Change.bare) = ofChanges changes := by
  rw [ofChanges, List.any_map, List.isEmpty_map]
  rfl

theorem Tally.ofKind_bare (kind : ChangeKind) (changes : List Change) :
    ofKind kind (changes.map Change.bare) = ofKind kind changes := by
  rw [ofKind, List.countP_map]
  rfl

theorem Tally.ofChanges_bare (changes : List Change) (moduleChanges : List ModuleChange) :
    ofChanges (changes.map Change.bare) (moduleChanges.map ModuleChange.bare) =
      ofChanges changes moduleChanges := by
  rw [ofChanges, ofKind_bare, ofKind_bare, ofKind_bare, ofKind_bare, List.countP_map,
    List.length_map, List.length_map]
  rfl

/-! ## Main statement -/

namespace Diff

variable {older older' newer newer' : Snapshot}

theorem changes_between_bare (comparator : TypeComparator) (older newer : Snapshot) :
    (between comparator older.bare newer.bare).changes =
      (between comparator older newer).changes.map Change.bare := by
  rw [changes_between_eq_flatMap, changes_between_eq_flatMap, Snapshot.matchModules_bare,
    List.flatMap_map, List.map_flatMap]
  exact List.flatMap_congr fun m _ => ModuleMatch.changes_bare comparator m

theorem moduleChanges_between_bare (comparator : TypeComparator) (older newer : Snapshot) :
    (between comparator older.bare newer.bare).moduleChanges =
      (between comparator older newer).moduleChanges.map ModuleChange.bare := by
  rw [moduleChanges_between_eq, moduleChanges_between_eq, Snapshot.matchModules_bare,
    changes_between_bare, List.filterMap_map, List.map_filterMap]
  exact List.filterMap_congr fun m _ => ModuleMatch.moduleChange?_bare m _

theorem tally_between_bare (comparator : TypeComparator) (older newer : Snapshot) :
    (between comparator older.bare newer.bare).tally = (between comparator older newer).tally := by
  have htally : (between comparator older.bare newer.bare).tally =
      .ofChanges (between comparator older.bare newer.bare).changes
        (between comparator older.bare newer.bare).moduleChanges := rfl
  rw [htally, changes_between_bare, moduleChanges_between_bare]
  exact Tally.ofChanges_bare _ _

theorem bump_between_bare (comparator : TypeComparator) (older newer : Snapshot) :
    (between comparator older.bare newer.bare).bump = (between comparator older newer).bump := by
  have hbump : (between comparator older.bare newer.bare).bump =
      .ofChanges (between comparator older.bare newer.bare).changes := rfl
  rw [hbump, changes_between_bare]
  exact Bump.ofChanges_bare _

/-- Releases that differ in documentation and metadata only have diffs that agree on all
changes and module changes, the versions shown with them apart from documentation, on the
tally and on the bump. -/
theorem between_agree_of_bare_eq (comparator : TypeComparator)
    (holder : older.bare = older'.bare) (hnewer : newer.bare = newer'.bare) :
    let diff := between comparator older newer
    let diff' := between comparator older' newer'
    diff.changes.map Change.bare = diff'.changes.map Change.bare ∧
    diff.moduleChanges.map ModuleChange.bare = diff'.moduleChanges.map ModuleChange.bare ∧
    diff.tally = diff'.tally ∧
    diff.bump = diff'.bump := by
  intro diff diff'
  refine ⟨?_, ?_, ?_, ?_⟩
  · rw [← changes_between_bare, holder, hnewer, changes_between_bare]
  · rw [← moduleChanges_between_bare, holder, hnewer, moduleChanges_between_bare]
  · rw [← tally_between_bare, holder, hnewer, tally_between_bare]
  · rw [← bump_between_bare, holder, hnewer, bump_between_bare]

/-- A release that narrows the type of a parameter, with every text that documents it
reworded and every flag on its exports turned round. -/
theorem between_agree_of_bare_eq_reworded :
    let a (words type : String) : Parameter :=
      { name := "a", type := some { raw := type }, description := some words,
        defaultValue := some words }
    let f (words type : String) : Symbol :=
      { id := "#f", name := words, kind := words, signature := words, description := words,
        summary := some words, examples := [words], parameters := [a words type],
        deprecation := some { message := some words } }
    let release (words : String) (flag : Bool) (type : String) : Snapshot :=
      let e : Export :=
        { name := "f", isDefault := flag, isTypeOnly := flag, symbol := some (f words type) }
      ⟨words, words, words, [⟨"m", [e], words, by simp⟩], some words,
        { documentedExports := if flag then 1 else 0 }, by simp⟩
    let older := release "first" false "string | number"
    let newer := release "first" false "string"
    let older' := release "second" true "string | number"
    let newer' := release "second" true "string"
    let diff := between .heuristic older newer
    let diff' := between .heuristic older' newer'
    (older.bare = older'.bare ∧ newer.bare = newer'.bare) ∧
    (diff.changes.map fun change => (change.breaking, change.details.map Detail.kind)) =
      [(true, [.parameterTypeNarrowed])] ∧
    diff.changes.map Change.bare = diff'.changes.map Change.bare ∧
    diff'.tally = ⟨0, 0, 1, 0, 1, 1, 1⟩ ∧
    diff'.bump = .major := by
  intro a f release older newer older' newer' diff diff'
  have holder : older.bare = older'.bare := rfl
  have hnewer : newer.bare = newer'.bare := rfl
  have htally : diff.tally = ⟨0, 0, 1, 0, 1, 1, 1⟩ := by decide +kernel
  have hmajor : diff.bump = .major := by decide +kernel
  obtain ⟨hchanges, _, htallies, hbumps⟩ :=
    between_agree_of_bare_eq .heuristic holder hnewer
  refine ⟨⟨holder, hnewer⟩, by decide +kernel, hchanges, ?_, ?_⟩
  · exact htallies.symm.trans htally
  · exact hbumps.symm.trans hmajor

end Diff

end ApiDrift
