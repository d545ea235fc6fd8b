import ApiDrift.Impact.Report
import Mathlib.Logic.Basic

set_option autoImplicit false

/-!
# Which export a reference stands for

An export is known by its module and name, and by the id of its symbol if it is resolved.  The
two kinds of references are not told apart, so several exports may claim one reference, and the
first of them has it.  What further snapshots claim is therefore only added behind.
-/

namespace ApiDrift.Impact

variable {snapshots : List Snapshot} {modulePath ref : String} {e : Export}

/-! ## Claims -/

/-- The exports of snapshots with the paths of their modules, in order. -/
def exportsOf (snapshots : List Snapshot) : List (String × Export) :=
  snapshots.flatMap fun s => s.modules.flatMap fun m => m.exports.map fun e => (m.path, e)

theorem mem_exportsOf_iff :
    (modulePath, e) ∈ exportsOf snapshots ↔
      ∃ s ∈ snapshots, ∃ m ∈ s.modules, m.path = modulePath ∧ e ∈ m.exports := by
  simp only [exportsOf, List.mem_flatMap, List.mem_map, Prod.mk.injEq]
  refine exists_congr fun s => and_congr_right fun _ => exists_congr fun m =>
    and_congr_right fun _ => ⟨?_, ?_⟩
  · rintro ⟨_, he, hpath, rfl⟩
    exact ⟨hpath, he⟩
  · rintro ⟨hpath, he⟩
    exact ⟨e, he, hpath, rfl⟩

/-- An export of the module at a path is known under a reference: by module and name, or by the
id of its symbol. -/
def IsKnownAs (modulePath : String) (e : Export) (ref : String) : Prop :=
  ref = Reference.ofName modulePath e.name ∨ ∃ symbol ∈ e.symbol, ref = symbol.id

instance (modulePath : String) (e : Export) (ref : String) :
    Decidable (IsKnownAs modulePath e ref) :=
  inferInstanceAs (Decidable (_ ∨ ∃ symbol ∈ e.symbol, ref = symbol.id))

/-- Under whatever reference an export is known, it claims the reference for its name. -/
theorem find?_exportClaims (modulePath : String) (e : Export) (ref : String) :
    ((exportClaims modulePath e).find? fun claim => claim.1 = ref) =
      if IsKnownAs modulePath e ref then some (ref, e.name) else none := by
  rw [exportClaims, List.find?_cons]
  by_cases hname : ref = Reference.ofName modulePath e.name
  · rw [if_pos (.inl hname)]
    simp [hname]
  · have hknown : IsKnownAs modulePath e ref ↔ ∃ symbol ∈ e.symbol, ref = symbol.id :=
      or_iff_right hname
    rw [if_congr hknown rfl rfl, decide_eq_false (Ne.symm hname)]
    cases e.symbol with
    | none => rfl
    | some symbol =>
      by_cases hid : symbol.id = ref
      · simp [hid]
      · simp [hid, Ne.symm hid]

/-! ## The index of snapshots -/

theorem exportIndex_eq_ofClaims (snapshots : List Snapshot) :
    exportIndex snapshots =
      .ofClaims ((exportsOf snapshots).flatMap fun e => exportClaims e.1 e.2) := by
  simp only [exportIndex, exportsOf, List.flatMap_assoc, List.flatMap_map]

/-- A reference has the name of the first export that is known under it. -/
theorem get?_exportIndex (snapshots : List Snapshot) (ref : String) :
    (exportIndex snapshots).get? ref =
      ((exportsOf snapshots).find? fun e => IsKnownAs e.1 e.2 ref).map fun e => e.2.name := by
  have hclaim (e : String × Export) :
      ((exportClaims e.1 e.2).find? fun claim => claim.1 = ref).map Prod.snd =
        (Option.guard (fun e => IsKnownAs e.1 e.2 ref) e).map fun e => e.2.name := by
    rw [find?_exportClaims]
    by_cases hknown : IsKnownAs e.1 e.2 ref <;> simp [Option.guard, hknown]
  rw [exportIndex_eq_ofClaims, InsertionMap.get?_ofClaims, List.find?_flatMap,
    List.find?_eq_findSome?_guard, List.map_findSome?, List.map_findSome?]
  exact congrArg (fun f => (exportsOf snapshots).findSome? f) (funext hclaim)

theorem mem_keys_exportIndex_iff :
    ref ∈ (exportIndex snapshots).keys ↔
      ∃ s ∈ snapshots, ∃ m ∈ s.modules, ∃ e ∈ m.exports, IsKnownAs m.path e ref := by
  rw [← not_iff_not, ← InsertionMap.get?_eq_none_iff, get?_exportIndex, Option.map_eq_none_iff,
    List.find?_eq_none]
  simp only [decide_eq_true_eq, Prod.forall, mem_exportsOf_iff]
  constructor
  · rintro hnone ⟨s, hs, m, hm, e, he, hknown⟩
    exact hnone m.path e ⟨s, hs, m, hm, rfl, he⟩ hknown
  · rintro hnone path e ⟨s, hs, m, hm, rfl, he⟩ hknown
    exact hnone ⟨s, hs, m, hm, e, he, hknown⟩

/-- Further snapshots add what they claim on their own, as far as it is not claimed yet. -/
theorem entries_exportIndex_append (earlier later : List Snapshot) :
    (exportIndex (earlier ++ later)).entries =
      (exportIndex earlier).entries ++
        (exportIndex later).entries.filter fun entry => entry.1 ∉ (exportIndex earlier).keys := by
  rw [exportIndex, List.flatMap_append, InsertionMap.ofClaims, List.foldl_append]
  exact InsertionMap.entries_foldl_claim _ _

/-! ## Main statement -/

/-- The index of two lists of snapshots is that of the first list with the new entries of the
second one behind it.  A reference is in an index exactly if some export is known under it, and
it stands for the first one in the order of the snapshots, their modules and their exports. -/
theorem exportIndex_of_first_claims (earlier later : List Snapshot) :
    ((exportIndex (earlier ++ later)).entries =
      (exportIndex earlier).entries ++
        (exportIndex later).entries.filter fun entry => entry.1 ∉ (exportIndex earlier).keys) ∧
    ∀ (snapshots : List Snapshot) (ref : String),
      (ref ∈ (exportIndex snapshots).keys ↔
        ∃ s ∈ snapshots, ∃ m ∈ s.modules, ∃ e ∈ m.exports,
          ref = Reference.ofName m.path e.name ∨ ∃ symbol ∈ e.symbol, ref = symbol.id) ∧
      (exportIndex snapshots).get? ref =
        ((exportsOf snapshots).find? fun e => IsKnownAs e.1 e.2 ref).map fun e => e.2.name :=
  ⟨entries_exportIndex_append earlier later, fun snapshots ref =>
    ⟨mem_keys_exportIndex_iff, get?_exportIndex snapshots ref⟩⟩

/-- The id of a symbol is the reference that a later export has by its module and name, and the
older snapshot claims it once more for a third name. -/
example :
    let e (name id : String) : Export := { name := name, symbol := some { id := id, name := name } }
    let newer : Snapshot :=
      ⟨"newer", "", "", [⟨"m", [e "f" "m#g", e "g" "#g"], "", by simp [e]⟩], none, {}, by simp⟩
    let older : Snapshot :=
      ⟨"older", "", "", [⟨"m", [e "h" "m#g"], "", by simp⟩], none, {}, by simp⟩
    (exportIndex [newer, older]).entries =
      [("m#f", "f"), ("m#g", "f"), ("#g", "g"), ("m#h", "h")] := by
  decide +kernel

end ApiDrift.Impact
