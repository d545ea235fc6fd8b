import ApiDrift.Proofs.Release.Matching
import ApiDrift.Proofs.Signature.Compatibility

set_option autoImplicit false

/-!
# What a release without a major bump keeps

Any breaking change makes the bump of a diff major.  So without one no export is
removed, and the versions of a resolved export differ by harmless details only.
Callers are then served: what they pass is taken where it was taken before, and what
they get back is nothing new.
-/

namespace ApiDrift

/-! ## Compatible versions -/

/-- What callers of a symbol keep if it is replaced by another version. -/
structure Signature.Compatible (comparator : TypeComparator) (before after : Symbol) : Prop where
  accepts : ∀ count, Accepts before.parameters count → Accepts after.parameters count
  continued : ∀ (position : Nat) (old : Parameter), before.parameters[position]? = some old →
    ∃ new : Parameter, after.parameters[position]? = some new ∧
      (new.name = old.name ∨
        old.name ∉ after.parameters.map Parameter.name ∧
          new.name ∉ before.parameters.map Parameter.name) ∧
      comparator.relate old.type new.type ≠ .narrowed
  returned : comparator.relate before.returnType after.returnType = .same ∨
    comparator.relate before.returnType after.returnType = .narrowed

/-- Versions that differ by harmless details are compatible. -/
theorem Signature.compatible_of_harmless {comparator : TypeComparator} {before after : Symbol}
    (hbefore : HasDistinctNames before.parameters) (hafter : HasDistinctNames after.parameters)
    (h : Harmless (compareSymbols comparator before after)) :
    Compatible comparator before after := by
  obtain ⟨hparameters, hreturn⟩ := harmless_compareSymbols_iff.mp h
  have hcontinues := continues_of_harmless hbefore hafter hparameters
  refine ⟨fun count => hcontinues.accepts, fun position old hold => ?_, hreturn⟩
  obtain ⟨new, hnew, hname, htype, _⟩ := hcontinues.continued position old hold
  exact ⟨new, hnew, hname, htype⟩

namespace Diff

variable {comparator : TypeComparator} {older newer : Snapshot}

/-! ## Exports without a breaking change -/

/-- A match with a harmless change, or with none, has an export on the newer side if it
has one on the older side. -/
theorem exists_newer_export
    (h : ∀ change ∈ (between comparator older newer).changes, change.breaking = false)
    {path name : String} {old : Export} (hold : older.export? path name = some old) :
    ∃ new, newer.export? path name = some new := by
  cases hnew : newer.export? path name with
  | some new => exact ⟨new, rfl⟩
  | none =>
    have hharmless := h _ (removal_mem_changes_between hold hnew)
    simp [Match.removal, Detail.breaking] at hharmless

theorem harmless_compareSymbols
    (h : ∀ change ∈ (between comparator older newer).changes, change.breaking = false)
    {path name : String} {old new : Export} (hold : older.export? path name = some old)
    (hnew : newer.export? path name = some new) {before after : Symbol}
    (hbefore : old.symbol = some before) (hafter : new.symbol = some after) :
    Signature.Harmless (Signature.compareSymbols comparator before after) := by
  by_cases hsame : Signature.compareSymbols comparator before after = []
  · rw [hsame]
    exact fun d hd => absurd hd List.not_mem_nil
  · have hharmless := h _ (modification_mem_changes_between hold hnew hbefore hafter hsame)
    exact Signature.harmless_of_any_eq_false hharmless

/-! ## Soundness -/

/-- If no major bump is recommended and no parameter name is repeated, every older
export is still there, and where its symbol is known on both sides the newer version
is compatible with the older one. -/
theorem compatible_of_bump_ne_major (hdistinct : older.HasDistinctNames)
    (hdistinct' : newer.HasDistinctNames)
    (hbump : (between comparator older newer).bump ≠ .major) :
    ∀ path name old, older.export? path name = some old →
      ∃ new, newer.export? path name = some new ∧
        ∀ before after, old.symbol = some before → new.symbol = some after →
          Signature.Compatible comparator before after := by
  intro path name old hold
  have hchanges := bump_ne_major_iff.mp hbump
  obtain ⟨new, hnew⟩ := exists_newer_export hchanges hold
  refine ⟨new, hnew, fun before after hbefore hafter => ?_⟩
  apply Signature.compatible_of_harmless
  · exact hdistinct.of_export? hold hbefore
  · exact hdistinct'.of_export? hnew hafter
  · exact harmless_compareSymbols hchanges hold hnew hbefore hafter

/-- A release that renames and widens a parameter, makes another one optional, adds an
optional one behind them and narrows the return type. -/
theorem compatible_of_bump_ne_major_renamed :
    let before : Symbol :=
      { id := "#f", name := "f", returnType := some { raw := "string | number" },
        parameters := [{ name := "key", type := some { raw := "string" } }, { name := "limit" }] }
    let after : Symbol :=
      { id := "#f", name := "f", returnType := some { raw := "string" },
        parameters :=
          [{ name := "id", type := some { raw := "number|string" } },
            { name := "limit", isOptional := true }, { name := "strict", isOptional := true }] }
    let release (symbol : Symbol) : Snapshot :=
      ⟨"release", "", "", [⟨"m", [{ name := "f", symbol := some symbol }], "", by simp⟩], none, {},
        by simp⟩
    ((release before).HasDistinctNames ∧ (release after).HasDistinctNames ∧
      (between .heuristic (release before) (release after)).bump ≠ .major) ∧
    Signature.Compatible .heuristic before after := by
  intro before after release
  have hdistinct : (release before).HasDistinctNames := by decide +kernel
  have hdistinct' : (release after).HasDistinctNames := by decide +kernel
  have hbump : (between .heuristic (release before) (release after)).bump ≠ .major := by
    decide +kernel
  obtain ⟨new, hnew, hcompatible⟩ := compatible_of_bump_ne_major hdistinct hdistinct' hbump
    "m" "f" { name := "f", symbol := some before } rfl
  have hsame : new = { name := "f", symbol := some after } := (Option.some.inj hnew).symm
  refine ⟨⟨hdistinct, hdistinct', hbump⟩, hcompatible before after rfl ?_⟩
  rw [hsame]

end Diff

end ApiDrift
