import ApiDrift.Snapshot.Basic
import ApiDrift.Vocabulary
import ApiDrift.Journal.Event

set_option autoImplicit false

/-!
# Matching two snapshots

Exports are matched by module path and export name alone, so a renamed export is
one removal and one addition.  Module paths keep the order of the older snapshot,
with new ones behind; within a module the names are in code point order.
-/

namespace ApiDrift

/-- Whether an export name is in the newer module only, the older one only, or both. -/
inductive MatchStatus where
  | added
  | removed
  | matched
  deriving DecidableEq, Repr, Inhabited

/-- Whether a module is in the newer snapshot only, the older one only, or both. -/
inductive ModuleStatus where
  | added
  | removed
  | changed
  deriving DecidableEq, Repr, Inhabited

namespace MatchStatus

/-- The word for a status. -/
def word : MatchStatus → String
  | added => "added"
  | removed => "removed"
  | matched => "matched"

/-- The statuses of export names and their words. -/
def vocabulary : Vocabulary MatchStatus := ⟨"MatchStatus", [added, removed, matched], word⟩

end MatchStatus

namespace ModuleStatus

/-- The word for a status. -/
def word : ModuleStatus → String
  | added => "added"
  | removed => "removed"
  | changed => "changed"

/-- The statuses of modules and their words. -/
def vocabulary : Vocabulary ModuleStatus := ⟨"ModuleStatus", [added, removed, changed], word⟩

end ModuleStatus

/-! ## Matches -/

/-- An export name of a module with its older and its newer export. -/
structure Match where
  status : MatchStatus
  modulePath : String
  name : String
  before : Option Export := none
  after : Option Export := none
  deriving Repr

/-- All matches of one module path. -/
structure ModuleMatch where
  modulePath : String
  status : ModuleStatus
  entries : List Match
  hadExports : Bool
  deriving Repr

namespace Match

/-- The match of an export name that at least one side has. -/
def ofSides (modulePath name : String) (before after : Option Export) : Match where
  status :=
    match before, after with
    | _, none => .removed
    | none, some _ => .added
    | some _, some _ => .matched
  modulePath := modulePath
  name := name
  before := before
  after := after

end Match

/-- Names in code point order. -/
def sortNames (names : List String) : List String := names.mergeSort fun a b => decide (a ≤ b)

/-- The names of the first list, then those only the second one has. -/
def mergeNames (names others : List String) : List String :=
  names ++ others.filter fun name => !names.contains name

theorem mem_sortNames_iff {names : List String} {name : String} :
    name ∈ sortNames names ↔ name ∈ names :=
  List.mem_mergeSort

theorem mem_mergeNames_iff {names others : List String} {name : String} :
    name ∈ mergeNames names others ↔ name ∈ names ∨ name ∈ others := by
  simp only [mergeNames, List.mem_append, List.mem_filter, Bool.not_eq_true',
    List.contains_eq_mem, decide_eq_false_iff_not]
  constructor
  · intro h
    rcases h with h | h
    · exact .inl h
    · exact .inr h.1
  · intro h
    rcases h with h | h
    · exact .inl h
    · by_cases known : name ∈ names
      · exact .inl known
      · exact .inr ⟨h, known⟩

theorem mergeNames_nodup {names others : List String} (h : names.Nodup) (h' : others.Nodup) :
    (mergeNames names others).Nodup := by
  refine List.nodup_append.mpr ⟨h, h'.filter _, ?_⟩
  rintro a ha b hb rfl
  have fresh := (List.mem_filter.mp hb).2
  simp only [Bool.not_eq_true', List.contains_eq_mem, decide_eq_false_iff_not] at fresh
  exact fresh ha

namespace ModuleMatch

/-- The names that a module exports, none where the module is missing. -/
def exportNames (m : Option Module) : List String := m.elim [] Module.exportNames

/-- The matches between two modules of one path. -/
def matchExports (path : String) (before after : Option Module) : List Match :=
  (sortNames (mergeNames (exportNames before) (exportNames after))).map fun name =>
    .ofSides path name (before.bind (·.export? name)) (after.bind (·.export? name))

/-- The match of a module path that at least one side has. -/
def ofSides (path : String) (before after : Option Module) : ModuleMatch where
  modulePath := path
  status :=
    match before, after with
    | _, none => .removed
    | none, some _ => .added
    | some _, some _ => .changed
  entries := matchExports path before after
  hadExports := before.any fun m => !m.exports.isEmpty

/-- What a matched module leaves in the trace. -/
def trace (m : ModuleMatch) : List Event :=
  match m.status with
  | .removed => [.moduleRemoved m.modulePath]
  | .added => [.moduleAdded m.modulePath]
  | .changed => []

end ModuleMatch

namespace Snapshot

/-- The modules of two snapshots, matched by path. -/
def matchModules (older newer : Snapshot) : List ModuleMatch :=
  (mergeNames older.paths newer.paths).map fun path =>
    .ofSides path (older.module? path) (newer.module? path)

end Snapshot

end ApiDrift
