import ApiDrift.Proofs.Release.Lookup
import ApiDrift.Proofs.Signature.Mirror

set_option autoImplicit false

/-!
# The diff the other way round

What is added on the way from one snapshot to another is removed on the way back, and
the details of an export that both snapshots resolve are those of the way back in the
mirror.  A deprecation is the one detail without a mirror: it is reported when it
starts, not when it ends.
-/

namespace ApiDrift.Diff

variable {comparator : TypeComparator} {older newer : Snapshot} {path name : String}

/-! ## Added and removed exports -/

theorem keysOf_added_perm_removed (comparator : TypeComparator) (older newer : Snapshot) :
    ((between comparator older newer).keysOf .added).Perm
      ((between comparator newer older).keysOf .removed) := by
  have hnodup := keysOf_between_nodup comparator older newer .added
  have hnodup' := keysOf_between_nodup comparator newer older .removed
  refine (List.perm_ext_iff_of_nodup hnodup hnodup').mpr ?_
  rintro ⟨path, name⟩
  rw [mem_keysOf_added_iff, mem_keysOf_removed_iff]

/-! ## Details of an export -/

/-- The details that a diff has under a path and a name. -/
def detailsAt (diff : Diff) (path name : String) : List Detail :=
  (diff.changes.filter fun change => change.key = (path, name)).flatMap Change.details

/-- The details of a resolved export are the differences between its versions. -/
theorem detailsAt_between {old new : Export} {before after : Symbol}
    (hold : older.export? path name = some old) (hnew : newer.export? path name = some new)
    (hbefore : old.symbol = some before) (hafter : new.symbol = some after) :
    (between comparator older newer).detailsAt path name =
      Signature.compareSymbols comparator before after := by
  have hside : (older.export? path name).isSome = true ∨
      (newer.export? path name).isSome = true := by
    rw [hold]
    exact .inl rfl
  have hversions := (Match.versions?_between_eq_some_iff hold hnew).mpr ⟨hbefore, hafter⟩
  rw [detailsAt, filter_key_changes_between comparator hside, Match.change?,
    Match.status_between_of_matched hold hnew, hversions]
  dsimp only [Option.bind_some]
  cases Signature.compareSymbols comparator before after with
  | nil => rfl
  | cons d details => exact List.flatMap_singleton _ _

/-! ## Main statement -/

/-- The exports added between two snapshots are those removed on the way back, and
conversely.  If no parameter name is repeated, the details of an export that is resolved
on both sides are those of the way back in the mirror. -/
theorem between_mirrored (hdistinct : older.HasDistinctNames)
    (hdistinct' : newer.HasDistinctNames) :
    let diff := between .heuristic older newer
    let back := between .heuristic newer older
    (diff.keysOf .added).Perm (back.keysOf .removed) ∧
    (diff.keysOf .removed).Perm (back.keysOf .added) ∧
    ∀ path name old new before after, older.export? path name = some old →
      newer.export? path name = some new → old.symbol = some before → new.symbol = some after →
        Signature.Mirrored (diff.detailsAt path name) (back.detailsAt path name) := by
  intro diff back
  refine ⟨keysOf_added_perm_removed _ _ _, (keysOf_added_perm_removed _ _ _).symm, ?_⟩
  intro path name old new before after hold hnew hbefore hafter
  rw [detailsAt_between hold hnew hbefore hafter, detailsAt_between hnew hold hafter hbefore]
  apply Signature.compareSymbols_mirrored TypeComparator.isReversible_heuristic
  · exact hdistinct.of_export? hold hbefore
  · exact hdistinct'.of_export? hnew hafter

/-- A release that renames and widens a parameter, swaps two others, drops one, makes one
optional and narrows the return type, and that has one module in place of another. -/
theorem between_mirrored_reworked :
    let before : Symbol :=
      { id := "#f", name := "f", returnType := some { raw := "string | number" },
        parameters := [{ name := "key", type := some { raw := "string" } }, { name := "from" },
          { name := "to" }, { name := "limit" }, { name := "strict" }] }
    let after : Symbol :=
      { id := "#f", name := "f", returnType := some { raw := "string" },
        parameters := [{ name := "id", type := some { raw := "number|string" } }, { name := "to" },
          { name := "from" }, { name := "limit", isOptional := true }] }
    let release (symbol : Symbol) (other : String) (h : other ≠ "m") : Snapshot :=
      ⟨"release", "", "", [⟨"m", [{ name := "f", symbol := some symbol }], "", by simp⟩,
        ⟨other, [{ name := "g" }], "", by simp⟩], none, {}, by simpa using h.symm⟩
    let older := release before "old" (by decide)
    let newer := release after "new" (by decide)
    let diff := between .heuristic older newer
    let back := between .heuristic newer older
    (older.HasDistinctNames ∧ newer.HasDistinctNames) ∧
    diff.keysOf .added = [("new", "g")] ∧ (back.keysOf .removed).Perm [("new", "g")] ∧
    (diff.detailsAt "m" "f").map Detail.kind =
      [.parameterRenamed, .parameterTypeWidened, .parameterReordered, .parameterReordered,
        .parameterMadeOptional, .parameterRemoved, .returnTypeNarrowed] ∧
    Signature.Mirrored (diff.detailsAt "m" "f") (back.detailsAt "m" "f") := by
  intro before after release older newer diff back
  have hdistinct : older.HasDistinctNames := by decide +kernel
  have hdistinct' : newer.HasDistinctNames := by decide +kernel
  obtain ⟨hadded, _, hdetails⟩ := between_mirrored hdistinct hdistinct'
  have hnew : diff.keysOf .added = [("new", "g")] := by decide +kernel
  refine ⟨⟨hdistinct, hdistinct'⟩, hnew, ?_, by decide +kernel, ?_⟩
  · rw [← hnew]
    exact hadded.symm
  · exact hdetails "m" "f" { name := "f", symbol := some before }
      { name := "f", symbol := some after } before after rfl rfl rfl rfl

end ApiDrift.Diff
