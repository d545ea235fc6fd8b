import ApiDrift.Proofs.Signature.Places

set_option autoImplicit false

/-!
# What the reasons of a difference tell

The kind of a detail that carries a type relation can be told from the relation and from
where the type stands, and so can whether callers can live with it.  A comparison of two
symbols makes no detail of a whole export, and it makes at most one of a deprecation, which
then comes last.
-/

namespace ApiDrift

/-! ## Retypings -/

/-- The kinds of details that say how a type shifted. -/
def DetailKind.retypings : List DetailKind :=
  [.parameterTypeWidened, .parameterTypeNarrowed, .parameterTypeChanged, .returnTypeWidened,
    .returnTypeNarrowed, .returnTypeChanged]

/-- The kind of a type that stands at a position in a relation to the older one; none if it
is still the same. -/
def TypeRelation.retyping? : TypeRelation → Position → Option DetailKind
  | .same, _ => none
  | .widened, .input => some .parameterTypeWidened
  | .narrowed, .input => some .parameterTypeNarrowed
  | .unrelated, .input => some .parameterTypeChanged
  | .widened, .output => some .returnTypeWidened
  | .narrowed, .output => some .returnTypeNarrowed
  | .unrelated, .output => some .returnTypeChanged

namespace Detail

/-- Where the type stands that a detail is about: callers pass a parameter in, and get back
what no parameter takes. -/
def slot (d : Detail) : Position := if d.parameter?.isSome then .input else .output

/-- The relation, the kind and the harm of a detail fit together. -/
structure Consistent (d : Detail) : Prop where
  relation_isSome_iff : d.relation?.isSome = true ↔ d.kind ∈ DetailKind.retypings
  kind_eq : ∀ relation ∈ d.relation?, relation.retyping? d.slot = some d.kind
  breaking_iff : ∀ relation ∈ d.relation?, d.breaking = true ↔
    (d.slot = .input ∧ relation = .narrowed) ∨
      (d.slot = .output ∧ (relation = .widened ∨ relation = .unrelated))

/-- A detail without a relation has nothing to fit together but its kind. -/
theorem consistent_of_relation?_eq_none {d : Detail} (h : d.relation? = none)
    (hkind : d.kind ∉ DetailKind.retypings) : d.Consistent where
  relation_isSome_iff := by simp [h, hkind]
  kind_eq := by simp [h]
  breaking_iff := by simp [h]

theorem consistent (d : Detail) : d.Consistent := by
  cases d with
  | parameterRetyped name position shift previous type =>
    cases shift <;> constructor <;> simp [relation?, kind, slot, parameter?, breaking,
      TypeShift.relation, TypeShift.parameterKind, TypeRelation.retyping?, TypeRelation.isSafe,
      DetailKind.retypings]
  | returnRetyped shift previous type =>
    cases shift <;> constructor <;> simp [relation?, kind, slot, parameter?, breaking,
      TypeShift.relation, TypeShift.returnKind, TypeRelation.retyping?, TypeRelation.isSafe,
      DetailKind.retypings]
  | _ => exact consistent_of_relation?_eq_none rfl (by simp [kind, DetailKind.retypings])

end Detail

/-! ## Deprecations -/

/-- Whether a kind of difference is of a signature: neither of a whole export nor of a
notice that it carries. -/
def DetailKind.isAboutSignature : DetailKind → Bool
  | exportAdded | exportRemoved | deprecated => false
  | _ => true

namespace Signature

variable {comparator : TypeComparator} {before after : Symbol} {d : Detail}

theorem isAboutSignature_of_mem_compareParameters {before after : List Parameter}
    (h : d ∈ compareParameters comparator before after) : d.kind.isAboutSignature = true := by
  have hparameter := isAboutParameter_of_mem_compareParameters h
  revert hparameter
  cases d.kind <;> simp [DetailKind.isAboutParameter, DetailKind.isAboutSignature]

theorem isAboutSignature_of_mem_returnDetails {old new : Option TypeExpr}
    (h : d ∈ returnDetails comparator old new) : d.kind.isAboutSignature = true := by
  obtain ⟨shift, rfl⟩ := exists_shift_of_mem_returnDetails h
  cases shift <;> rfl

/-- The differences of the signatures come first, and a new deprecation behind them. -/
theorem compareSymbols_eq_append (comparator : TypeComparator) (before after : Symbol) :
    ∃ front : List Detail, (∀ d ∈ front, d.kind.isAboutSignature = true) ∧
      (compareSymbols comparator before after = front ∨
        compareSymbols comparator before after = front ++ [.deprecated]) := by
  refine ⟨compareParameters comparator before.parameters after.parameters ++
    returnDetails comparator before.returnType after.returnType, ?_, ?_⟩
  · intro d hd
    rcases List.mem_append.mp hd with hd | hd
    · exact isAboutSignature_of_mem_compareParameters hd
    · exact isAboutSignature_of_mem_returnDetails hd
  · rw [compareSymbols, deprecationDetails]
    split
    · exact .inr rfl
    · exact .inl (List.append_nil _)

/-- A comparison of two symbols makes no difference of a whole export. -/
theorem ne_whole_of_mem_compareSymbols (h : d ∈ compareSymbols comparator before after) :
    d ≠ .exportAdded ∧ d ≠ .exportRemoved := by
  obtain ⟨front, hfront, hdetails⟩ := compareSymbols_eq_append comparator before after
  have hcases : d ∈ front ∨ d = .deprecated := by
    rcases hdetails with heq | heq
    · exact .inl (heq ▸ h)
    · simpa [heq] using h
  rcases hcases with hmem | rfl
  · have hsignature := hfront d hmem
    constructor <;> rintro rfl <;> cases hsignature
  · simp

/-- A new deprecation is the last of the differences and the only one of its kind. -/
theorem deprecated_mem_compareSymbols (h : .deprecated ∈ compareSymbols comparator before after) :
    (compareSymbols comparator before after).getLast? = some .deprecated ∧
      (compareSymbols comparator before after).count .deprecated = 1 := by
  obtain ⟨front, hfront, hdetails⟩ := compareSymbols_eq_append comparator before after
  have hother : .deprecated ∉ front := fun hmem => Bool.false_ne_true (hfront _ hmem)
  rcases hdetails with heq | heq
  · exact absurd (heq ▸ h) hother
  · rw [heq]
    refine ⟨List.getLast?_concat, ?_⟩
    rw [List.count_append, List.count_eq_zero.mpr hother]
    rfl

end Signature

end ApiDrift
