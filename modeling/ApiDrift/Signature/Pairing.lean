import ApiDrift.Snapshot.Signature

set_option autoImplicit false

/-!
# Pairing parameters

Each parameter of a newer list is looked at by its position alone.  The first
parameter of a name that the older list has too is kept, and its rank among the
kept ones says which shared name stood in its place.  Any other parameter stands
for the older parameter at its position where that one has no namesake, and is
added where there is none.  Older parameters without a namesake that nothing
stands for are removed.
-/

namespace ApiDrift.Signature

/-! ## Shared names -/

/-- Whether a list has a parameter of the given name. -/
def hasName (parameters : List Parameter) (name : String) : Bool :=
  parameters.any fun p => p.name == name

theorem hasName_iff {parameters : List Parameter} {name : String} :
    hasName parameters name = true ↔ name ∈ parameters.map Parameter.name := by
  simp [hasName]

/-- The parameter of a name; the last one where the name is repeated. -/
def lastNamed? (parameters : List Parameter) (name : String) : Option Parameter :=
  parameters.reverse.find? fun p => p.name == name

/-- The names of a list that another list has too, in the order of the list. -/
def sharedOrder (parameters others : List Parameter) : List String :=
  (parameters.map Parameter.name).filter (hasName others)

/-- The shared name that the older list has at the rank which a name has among
the distinct shared names of the newer list. -/
def atRankOf? (older newer : List String) (name : String) : Option String :=
  older[newer.idxOf name]?

/-! ## Pairings -/

/-- What a parameter of the newer list stands for. -/
inductive Pairing where
  /-- The older parameter of the same name; `previous` is the shared name at its
  rank in the older list. -/
  | kept (old : Parameter) (previous : Option String)
  /-- The older parameter at the same position, under a new name. -/
  | renamed (old : Parameter)
  /-- No older parameter; `shifts` tells whether a shared name follows it. -/
  | added (shifts : Bool)
  deriving Repr

/-- The older parameter at a position, if the newer list does not have its name. -/
def unpairedAt? (before after : List Parameter) (position : Nat) : Option Parameter :=
  before[position]?.filter fun old => !hasName after old.name

/-- The older parameter that the parameter at a position keeps: its namesake, if
it is the first of its name. -/
def keptAt? (before after : List Parameter) (position : Nat) (name : String) : Option Parameter :=
  if hasName (after.take position) name then none else lastNamed? before name

/-- What the parameter of the given name at a position stands for, if the older
list has the given shared name at its rank. -/
def pairingAt (before after : List Parameter) (previous : Option String) (position : Nat)
    (name : String) : Pairing :=
  match keptAt? before after position name with
  | some old => .kept old previous
  | none =>
    match unpairedAt? before after position with
    | some old => .renamed old
    | none => .added ((after.drop (position + 1)).any fun p => hasName before p.name)

/-- The parameters of the newer list with their positions and what they stand for. -/
def pairings (before after : List Parameter) : List (Parameter × Nat × Pairing) :=
  let older := sharedOrder before after
  let newer := (sharedOrder after before).eraseDups
  after.zipIdx.map fun (new, position) =>
    (new, position, pairingAt before after (atRankOf? older newer new.name) position new.name)

/-- The older parameter that a pairing is with, if any. -/
def Pairing.old? : Pairing → Option Parameter
  | kept old _ | renamed old => some old
  | added _ => none

/-- Whether an older parameter without a namesake at a position stays without
anything that stands for it. -/
def isRemovedAt (before after : List Parameter) (position : Nat) (old : Parameter) : Bool :=
  !hasName after old.name &&
    after[position]?.all fun new => (keptAt? before after position new.name).isSome

/-- The removed parameters with their positions, in order. -/
def removals (before after : List Parameter) : List (Parameter × Nat) :=
  before.zipIdx.filter fun (old, position) => isRemovedAt before after position old

end ApiDrift.Signature
