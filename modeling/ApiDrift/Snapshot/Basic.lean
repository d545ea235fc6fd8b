import ApiDrift.Failure
import ApiDrift.Keyed
import ApiDrift.Snapshot.Signature

set_option autoImplicit false

/-!
# Snapshots of an exported API

A snapshot captures what the modules of a workspace export.  Export names are
distinct within a module and module paths within a snapshot; both are part of
the types, and the builders say which of the two fails.
-/

namespace ApiDrift

/-- An export of a module; without a symbol where it could not be resolved. -/
structure Export where
  name : String
  isDefault : Bool := false
  isTypeOnly : Bool := false
  symbol : Option Symbol := none
  deriving Repr, Inhabited

/-- The exported API of one module. -/
structure Module where
  path : String
  exports : List Export
  hash : String
  names_nodup : (exports.map Export.name).Nodup
  deriving Repr

/-- Statistics of a snapshot.  Those that are given with it are kept as they are,
so they need not be the counts over its modules, nor even natural numbers. -/
structure Statistics where
  totalModules : Int := 0
  totalExports : Int := 0
  documentedExports : Int := 0
  deriving DecidableEq, Repr, Inhabited

/-- The exported API of a workspace at one point in time. -/
structure Snapshot where
  id : String
  createdAt : String
  workspaceUri : String
  modules : List Module
  tag : Option String
  statistics : Statistics
  paths_nodup : (modules.map Module.path).Nodup
  deriving Repr

/-- Why records do not make up a module or a snapshot. -/
inductive SnapshotError where
  | duplicateExports (path : String)
  | duplicateModules (id : String)
  deriving DecidableEq, Repr, Inhabited

/-- How an ill-formed module or snapshot is reported. -/
def SnapshotError.failure : SnapshotError → Failure
  | duplicateExports path => ⟨.value, s!"Duplicate export names in module {path}"⟩
  | duplicateModules id => ⟨.value, s!"Duplicate module paths in snapshot {id}"⟩

/-! ## Statistics -/

/-- Whether an export is resolved and documented. -/
def Export.isDocumented (e : Export) : Bool := e.symbol.any Symbol.isDocumented

/-- The counts over a list of modules. -/
def Statistics.ofModules (modules : List Module) : Statistics where
  totalModules := modules.length
  totalExports := (modules.flatMap Module.exports).length
  documentedExports := (modules.flatMap Module.exports).countP Export.isDocumented

/-! ## Modules -/

namespace Module

/-- The module of the given exports, if their names are distinct. -/
def build (path : String) (exports : List Export) (hash : String) : Except SnapshotError Module :=
  if h : (exports.map Export.name).Nodup then .ok ⟨path, exports, hash, h⟩
  else .error (.duplicateExports path)

/-- The export of a given name. -/
def export? (m : Module) (name : String) : Option Export := m.exports.find? fun e => e.name = name

/-- The names that a module exports, in order. -/
def exportNames (m : Module) : List String := m.exports.map Export.name

theorem export?_eq_none_iff {m : Module} {name : String} :
    m.export? name = none ↔ name ∉ m.exportNames :=
  Keyed.find?_eq_none_iff

theorem export?_eq_some_iff {m : Module} {name : String} {e : Export} :
    m.export? name = some e ↔ e ∈ m.exports ∧ e.name = name :=
  Keyed.find?_eq_some_iff m.names_nodup

end Module

/-! ## Snapshots -/

namespace Snapshot

/-- The snapshot of the given modules, if their paths are distinct.  Statistics
that are not given are counted. -/
def build (id createdAt workspaceUri : String) (modules : List Module) (tag : Option String)
    (statistics : Option Statistics) : Except SnapshotError Snapshot :=
  if h : (modules.map Module.path).Nodup then
    .ok ⟨id, createdAt, workspaceUri, modules, tag,
      statistics.getD (.ofModules modules), h⟩
  else .error (.duplicateModules id)

/-- The snapshot of a workspace without modules. -/
def empty (id workspaceUri : String) : Snapshot :=
  ⟨id, "", workspaceUri, [], none, .ofModules [], List.nodup_nil⟩

/-- The module at a given path. -/
def module? (s : Snapshot) (path : String) : Option Module :=
  s.modules.find? fun m => m.path = path

/-- The module paths of a snapshot, in order. -/
def paths (s : Snapshot) : List String := s.modules.map Module.path

theorem module?_eq_none_iff {s : Snapshot} {path : String} :
    s.module? path = none ↔ path ∉ s.paths :=
  Keyed.find?_eq_none_iff

theorem module?_eq_some_iff {s : Snapshot} {path : String} {m : Module} :
    s.module? path = some m ↔ m ∈ s.modules ∧ m.path = path :=
  Keyed.find?_eq_some_iff s.paths_nodup

end Snapshot

end ApiDrift
