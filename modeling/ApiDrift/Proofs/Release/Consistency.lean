import ApiDrift.Proofs.Release.Matching
import ApiDrift.Proofs.Signature.Reasons

set_option autoImplicit false

/-!
# Changes agree with their details

What a change says as a whole can be read off its details: whether it breaks callers, and of
which kind it is.  Every detail of a change that carries a type relation has the kind and the
harm of that relation at its position.  The bump of a diff is the largest one that a change
asks for.
-/

namespace ApiDrift

/-! ## Bumps -/

theorem Change.bump_eq_major_iff {c : Change} : c.bump = .major ↔ c.breaking = true := by
  unfold bump
  cases c.breaking <;> simp

namespace Bump

variable {changes : List Change}

theorem le_major (b : Bump) : b ≤ major := by
  cases b <;> decide

theorem ofChanges_eq_none_iff : ofChanges changes = none ↔ changes = [] := by
  unfold ofChanges
  cases changes with
  | nil => simp
  | cons c changes => by_cases h : (c :: changes).any Change.breaking <;> simp [h]

/-- Changes together ask for the largest bump that one of them asks for. -/
theorem exists_bump_eq_ofChanges (h : changes ≠ []) :
    (∃ c ∈ changes, c.bump = ofChanges changes) ∧ ∀ c ∈ changes, c.bump ≤ ofChanges changes := by
  unfold ofChanges
  split
  · rename_i hbreaking
    obtain ⟨c, hc, hbreaks⟩ := List.any_eq_true.mp hbreaking
    exact ⟨⟨c, hc, Change.bump_eq_major_iff.mpr hbreaks⟩, fun c _ => le_major c.bump⟩
  · rename_i hharmless
    have hminor : ∀ c ∈ changes, c.bump = .minor := by
      intro c hc
      have hc' := List.any_eq_false.mp (Bool.not_eq_true _ ▸ hharmless) c hc
      simp [Change.bump, hc']
    obtain ⟨c, hc⟩ := List.exists_mem_of_ne_nil changes h
    rw [if_neg (by simpa using h)]
    exact ⟨⟨c, hc, hminor c hc⟩, fun c hc => (hminor c hc).symm ▸ Nat.le_refl _⟩

end Bump

/-! ## Kinds of changes -/

/-- What a change says as a whole agrees with its details. -/
structure Change.Consistent (c : Change) : Prop where
  details_ne_nil : c.details ≠ []
  breaking_iff : c.breaking = true ↔ ∃ d ∈ c.details, d.breaking = true
  added_iff : c.kind = .added ↔ c.details = [.exportAdded]
  removed_iff : c.kind = .removed ↔ c.details = [.exportRemoved]
  deprecated_iff : c.kind = .deprecated ↔ c.details.getLast? = some .deprecated
  deprecated_once : c.kind = .deprecated → c.details.count .deprecated = 1
  modified_iff : c.kind ≠ .added → c.kind ≠ .removed →
    (c.kind = .modified ↔ .deprecated ∉ c.details)
  details_consistent : ∀ d ∈ c.details, d.Consistent

/-- A change of a whole export has one detail, which says so. -/
theorem Change.consistent_of_whole {c : Change} {d : Detail} (hdetails : c.details = [d])
    (hbreaking : c.breaking = d.breaking)
    (hkind : (c.kind = .added ∧ d = .exportAdded) ∨ (c.kind = .removed ∧ d = .exportRemoved)) :
    c.Consistent := by
  obtain ⟨hkind, rfl⟩ | ⟨hkind, rfl⟩ := hkind
  all_goals constructor <;> simp [hdetails, hbreaking, hkind, Detail.consistent]

namespace Match

variable {comparator : TypeComparator} {entry : Match} {change : Change}

section Modification

variable {before after : Symbol} {details : List Detail}

theorem kind_modification_eq_deprecated_iff :
    (entry.modification before after details).kind = .deprecated ↔ .deprecated ∈ details := by
  by_cases h : .deprecated ∈ details <;> simp [modification, h]

theorem kind_modification_eq_modified_iff :
    (entry.modification before after details).kind = .modified ↔ .deprecated ∉ details := by
  by_cases h : .deprecated ∈ details <;> simp [modification, h]

theorem kind_modification_ne :
    (entry.modification before after details).kind ≠ .added ∧
      (entry.modification before after details).kind ≠ .removed := by
  by_cases h : .deprecated ∈ details <;> simp [modification, h]

end Modification

/-- The differences of two symbols are no change of the whole export, and a new deprecation
among them is the last one. -/
theorem consistent_modification (entry : Match) {before after : Symbol}
    (hdiffer : Signature.compareSymbols comparator before after ≠ []) :
    (entry.modification before after
      (Signature.compareSymbols comparator before after)).Consistent := by
  have hwhole (d : Detail) (hd : d ∈ Signature.compareSymbols comparator before after) :
      d ≠ .exportAdded ∧ d ≠ .exportRemoved :=
    Signature.ne_whole_of_mem_compareSymbols hd
  have hlast (hd : .deprecated ∈ Signature.compareSymbols comparator before after) :=
    Signature.deprecated_mem_compareSymbols hd
  generalize Signature.compareSymbols comparator before after = details at hdiffer hwhole hlast ⊢
  refine ⟨hdiffer, List.any_eq_true, iff_of_false kind_modification_ne.1 ?_,
    iff_of_false kind_modification_ne.2 ?_, kind_modification_eq_deprecated_iff.trans ?_, ?_,
    fun _ _ => kind_modification_eq_modified_iff, fun d _ => d.consistent⟩
  · rintro rfl
    exact (hwhole .exportAdded (List.mem_singleton_self _)).1 rfl
  · rintro rfl
    exact (hwhole .exportRemoved (List.mem_singleton_self _)).2 rfl
  · exact ⟨fun hd => (hlast hd).1, List.mem_of_getLast?⟩
  · exact fun hkind => (hlast (kind_modification_eq_deprecated_iff.mp hkind)).2

theorem consistent_of_change? (h : entry.change? comparator = some change) :
    change.Consistent := by
  unfold change? at h
  split at h
  · cases h
    exact Change.consistent_of_whole rfl rfl (.inl ⟨rfl, rfl⟩)
  · cases h
    exact Change.consistent_of_whole rfl rfl (.inr ⟨rfl, rfl⟩)
  · obtain ⟨⟨before, after⟩, _, hchange⟩ := Option.bind_eq_some_iff.mp h
    dsimp only at hchange
    split at hchange
    · cases hchange
    · rename_i hdiffer
      cases hchange
      exact consistent_modification entry hdiffer

end Match

/-! ## Main statement -/

namespace Diff

/-- Every change of a diff agrees with its details.  The bump is none exactly if nothing
changed, and otherwise the largest one that a change asks for. -/
theorem changes_between_consistent (comparator : TypeComparator) (older newer : Snapshot) :
    let diff := between comparator older newer
    (∀ change ∈ diff.changes, change.Consistent) ∧
    (diff.bump = .none ↔ diff.changes = []) ∧
    (diff.changes ≠ [] →
      (∃ change ∈ diff.changes, change.bump = diff.bump) ∧
        ∀ change ∈ diff.changes, change.bump ≤ diff.bump) := by
  intro diff
  refine ⟨?_, Bump.ofChanges_eq_none_iff, Bump.exists_bump_eq_ofChanges⟩
  intro change hchange
  obtain ⟨_, _, _, hmatch⟩ := mem_changes_between_iff.mp hchange
  exact Match.consistent_of_change? hmatch

/-- A parameter that takes more and a result that may be more than it was are a harmless and a
breaking detail of one change, which the notice behind them makes a deprecation.  The new
export of another module asks for less. -/
theorem changes_between_consistent_deprecated :
    let f (wide : String) (notice : Option Deprecation) : Export :=
      { name := "f",
        symbol := some
          { id := "#f", name := "f", parameters := [{ name := "a", type := some { raw := wide } }],
            returnType := some { raw := wide }, deprecation := notice } }
    let older : Snapshot :=
      ⟨"older", "", "", [⟨"m", [f "A" none], "", by simp⟩], none, {}, by simp⟩
    let newer : Snapshot :=
      ⟨"newer", "", "", [⟨"m", [f "A | B" (some {})], "", by simp⟩,
        ⟨"n", [{ name := "g" }], "", by simp⟩], none, {}, by simp⟩
    let diff := between .heuristic older newer
    (diff.changes.map fun change => (change.symbolName, change.kind, change.bump)) =
      [("f", .deprecated, .major), ("g", .added, .minor)] ∧
    (∃ change ∈ diff.changes, change.Consistent ∧
      change.details.map (fun d => (d.kind, d.breaking, d.relation?)) =
        [(.parameterTypeWidened, false, some .widened), (.returnTypeWidened, true, some .widened),
          (.deprecated, false, none)]) ∧
    (∃ change ∈ diff.changes, change.bump = diff.bump) ∧ diff.bump = .major := by
  intro f older newer diff
  obtain ⟨hconsistent, _, hlargest⟩ := changes_between_consistent .heuristic older newer
  obtain ⟨change, hchange, hdetails⟩ : ∃ change ∈ diff.changes,
      change.details.map (fun d => (d.kind, d.breaking, d.relation?)) =
        [(.parameterTypeWidened, false, some .widened), (.returnTypeWidened, true, some .widened),
          (.deprecated, false, none)] := by
    decide +kernel
  refine ⟨by decide +kernel, ⟨change, hchange, hconsistent change hchange, hdetails⟩, ?_,
    by decide +kernel⟩
  exact (hlargest (List.ne_nil_of_mem hchange)).1

end Diff

end ApiDrift
