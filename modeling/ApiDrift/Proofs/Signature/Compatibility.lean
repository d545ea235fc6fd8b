import ApiDrift.Proofs.Signature.Pairing
import ApiDrift.Signature.Compare

set_option autoImplicit false

/-!
# What a comparison without breaking details means for calls

Calls are positional, while parameters are paired by name.  If no detail breaks
callers and no name is repeated, the two readings agree: the shared names keep
their order, nothing is put in ahead of one of them and nothing is taken out, so
every older parameter is continued at its own position.
-/

namespace ApiDrift.Signature

/-! ## Details without a break -/

/-- None of the details breaks callers. -/
def Harmless (details : List Detail) : Prop := ∀ d ∈ details, d.breaking = false

theorem harmless_append_iff {details details' : List Detail} :
    Harmless (details ++ details') ↔ Harmless details ∧ Harmless details' :=
  List.forall_mem_append

theorem not_harmless_iff {details : List Detail} :
    ¬ Harmless details ↔ ∃ d ∈ details, d.breaking = true := by
  simp [Harmless]

theorem harmless_of_any_eq_false {details : List Detail}
    (h : details.any Detail.breaking = false) : Harmless details := by
  intro d hd
  have hall := List.any_eq_false.mp h d hd
  exact Bool.eq_false_iff.mpr hall

variable {comparator : TypeComparator} {before after : List Parameter} {position : Nat}
  {old new : Parameter}

theorem harmless_retypedDetails_iff :
    Harmless (retypedDetails comparator old new position) ↔
      comparator.relate old.type new.type ≠ .narrowed := by
  unfold retypedDetails Harmless
  cases comparator.relate old.type new.type <;>
    simp [TypeRelation.shift?, Detail.breaking, TypeShift.relation, TypeRelation.isSafe]

theorem harmless_requirednessDetails_iff :
    Harmless (requirednessDetails old new position) ↔
      (new.isRequired = true → old.isRequired = true) := by
  unfold requirednessDetails Harmless
  cases old.isRequired <;> cases new.isRequired <;> simp [Detail.breaking]

theorem harmless_reorderedDetails_iff {name : String} {previous? : Option String} :
    Harmless (reorderedDetails name position previous?) ↔
      ∀ previous, previous? = some previous → previous = name := by
  unfold reorderedDetails Harmless
  cases previous? with
  | none => simp
  | some previous => by_cases hsame : previous = name <;> simp [hsame, Detail.breaking]

/-- A parameter may stand for an older one if its type is not narrower and if it is
required only where the older one is. -/
theorem harmless_parameterDetails_iff :
    Harmless (parameterDetails comparator old new position) ↔
      comparator.relate old.type new.type ≠ .narrowed ∧
        (new.isRequired = true → old.isRequired = true) := by
  rw [parameterDetails, harmless_append_iff, harmless_retypedDetails_iff,
    harmless_requirednessDetails_iff]

/-- A return type may stay or become narrower. -/
theorem harmless_returnDetails_iff {old new : Option TypeExpr} :
    Harmless (returnDetails comparator old new) ↔
      comparator.relate old new = .same ∨ comparator.relate old new = .narrowed := by
  unfold returnDetails Harmless
  cases comparator.relate old new <;>
    simp [TypeRelation.shift?, Detail.breaking, TypeShift.relation, TypeRelation.isSafe]

theorem harmless_deprecationDetails (before after : Symbol) :
    Harmless (deprecationDetails before after) := by
  intro d hd
  rw [eq_of_mem_deprecationDetails hd]
  rfl

/-- Two versions of a symbol differ by harmless details if their parameters do and the type
that is returned gets no wider. -/
theorem harmless_compareSymbols_iff {before after : Symbol} :
    Harmless (compareSymbols comparator before after) ↔
      Harmless (compareParameters comparator before.parameters after.parameters) ∧
        (comparator.relate before.returnType after.returnType = .same ∨
          comparator.relate before.returnType after.returnType = .narrowed) := by
  rw [compareSymbols, harmless_append_iff, harmless_append_iff, harmless_returnDetails_iff]
  exact and_iff_left (harmless_deprecationDetails before after)

/-- No parameter of the newer list breaks callers by what it stands for. -/
def HarmlessPairings (comparator : TypeComparator) (before after : List Parameter) : Prop :=
  ∀ (position : Nat) (new : Parameter), after[position]? = some new →
    Harmless (pairingDetails comparator new position
      (pairingAt before after (previousName? before after new.name) position new.name))

/-- Nothing of the older list is removed. -/
def NothingRemoved (before after : List Parameter) : Prop :=
  ∀ (position : Nat) (old : Parameter), before[position]? = some old →
    isRemovedAt before after position old = false

/-- Where nothing is removed, an older parameter without a namesake stands at a position that
keeps nothing. -/
theorem exists_not_kept_of_unshared (hremoved : NothingRemoved before after)
    (hold : before[position]? = some old) (hunshared : hasName after old.name = false) :
    ∃ new, after[position]? = some new ∧
      (keptAt? before after position new.name).isSome = false := by
  have hstays := hremoved position old hold
  rw [isRemovedAt, hunshared, Bool.not_false, Bool.true_and] at hstays
  cases hat : after[position]? with
  | none => simp [hat] at hstays
  | some new => exact ⟨new, rfl, by simpa [hat] using hstays⟩

theorem harmless_compareParameters_iff :
    Harmless (compareParameters comparator before after) ↔
      HarmlessPairings comparator before after ∧ NothingRemoved before after := by
  constructor
  · intro h
    refine ⟨fun position new hat d hd => ?_, fun position old hold => ?_⟩
    · exact h d (mem_compareParameters_iff.mpr (.inl ⟨position, new, hat, hd⟩))
    · rw [← Bool.not_eq_true]
      intro hremoved
      have hbreak := h _ (mem_compareParameters_iff.mpr (.inr ⟨position, old, hold, hremoved, rfl⟩))
      simp [Detail.breaking] at hbreak
  · intro h d hd
    obtain ⟨hnew, hremoved⟩ := h
    rcases mem_compareParameters_iff.mp hd with
      ⟨position, new, hat, hd⟩ | ⟨position, old, hold, hgone, _⟩
    · exact hnew position new hat d hd
    · rw [hremoved position old hold] at hgone
      simp at hgone

/-! ## Names in line -/

section InLine

variable {shared shared' : String → Bool} {names others : List String}

/-- The heads of two lists with the same shared names in the same order are in line if
an unshared head of the first one meets an unshared one, and if a shared one does not
meet an unshared one ahead of a shared name. -/
theorem heads_in_line {head head' : String}
    (horder : (head :: names).filter shared = (head' :: others).filter shared')
    (hmet : shared head = false → shared' head' = false)
    (hadded : shared head = true → shared' head' = false → ∀ m ∈ others, shared' m = false) :
    (head' = head ∨ shared head = false ∧ shared' head' = false) ∧
      names.filter shared = others.filter shared' := by
  cases hhead : shared head with
  | false =>
    have hhead' := hmet hhead
    simp only [List.filter_cons, hhead, hhead'] at horder
    exact ⟨.inr ⟨rfl, hhead'⟩, by simpa using horder⟩
  | true =>
    cases hhead' : shared' head' with
    | true =>
      simp only [List.filter_cons, hhead, hhead', if_true, List.cons.injEq] at horder
      exact ⟨.inl horder.1.symm, horder.2⟩
    | false =>
      -- the shared head of the first list would stand behind the addition
      have hrest : others.filter shared' = [] := by
        refine List.filter_eq_nil_iff.mpr fun m hm => ?_
        rw [hadded hhead hhead' m hm]
        exact Bool.false_ne_true
      simp [hhead, hhead', hrest] at horder

/-- Two lists of names are in line as far as the first one goes if their shared
names are the same in the same order, if an unshared name of the first one always
meets an unshared name of the second, and if any other unshared name of the second
one has no shared name behind it. -/
theorem in_line_of_filter_eq (horder : names.filter shared = others.filter shared')
    (hmet : ∀ (i : Nat) n, names[i]? = some n → shared n = false →
      ∃ n', others[i]? = some n' ∧ shared' n' = false)
    (hadded : ∀ (i : Nat) n', others[i]? = some n' → shared' n' = false →
      (∀ n, names[i]? = some n → shared n = true) →
      ∀ m ∈ others.drop (i + 1), shared' m = false) :
    ∀ (i : Nat) n, names[i]? = some n →
      ∃ n', others[i]? = some n' ∧ (n' = n ∨ shared n = false ∧ shared' n' = false) := by
  induction names generalizing others with
  | nil =>
    intro i n hn
    simp at hn
  | cons head names ih =>
    cases others with
    | nil =>
      cases hhead : shared head with
      | true => simp [hhead] at horder
      | false =>
        obtain ⟨n', hn', _⟩ := hmet 0 head rfl hhead
        simp at hn'
    | cons head' others =>
      have hmet₀ : shared head = false → shared' head' = false := by
        intro hhead
        obtain ⟨n', hn', hunshared⟩ := hmet 0 head rfl hhead
        cases hn'
        exact hunshared
      have hadded₀ : shared head = true → shared' head' = false →
          ∀ m ∈ others, shared' m = false := by
        intro hhead hhead' m hm
        refine hadded 0 head' rfl hhead' (fun n hn => ?_) m hm
        cases hn
        exact hhead
      obtain ⟨hheads, horder'⟩ := heads_in_line horder hmet₀ hadded₀
      intro i n hn
      cases i with
      | zero =>
        cases hn
        exact ⟨head', rfl, hheads⟩
      | succ i =>
        apply ih horder' _ _ i n hn
        · exact fun j m hm hunshared => hmet (j + 1) m hm hunshared
        · exact fun j m hm hunshared hshared => hadded (j + 1) m hm hunshared hshared

end InLine

/-! ## Continued parameters -/

/-- Every older parameter goes on at its position, under its name or under a name
that is new, and what stands behind the older ones may be left out. -/
structure Continues (comparator : TypeComparator) (before after : List Parameter) : Prop where
  continued : ∀ (position : Nat) (old : Parameter), before[position]? = some old →
    ∃ new : Parameter, after[position]? = some new ∧
      (new.name = old.name ∨
        old.name ∉ after.map Parameter.name ∧ new.name ∉ before.map Parameter.name) ∧
      comparator.relate old.type new.type ≠ .narrowed ∧
      (new.isRequired = true → old.isRequired = true)
  added_optional : ∀ (position : Nat) (new : Parameter), after[position]? = some new →
    before.length ≤ position → new.isRequired = false

theorem Continues.length_le (h : Continues comparator before after) :
    before.length ≤ after.length := by
  by_contra hshorter
  obtain ⟨new, hat, _⟩ :=
    h.continued after.length _ (List.getElem?_eq_getElem (Nat.lt_of_not_le hshorter))
  simp at hat

/-- Lists of the same distinct names are equal if each name has itself at its rank. -/
theorem eq_of_atRankOf?_eq_self {older newer : List String} (hnodup : newer.Nodup)
    (hlength : older.length = newer.length)
    (h : ∀ name ∈ newer, atRankOf? older newer name = some name) : older = newer := by
  refine List.ext_getElem hlength fun i hi hi' => ?_
  have hself := h newer[i] (List.getElem_mem hi')
  rw [atRankOf?, List.Nodup.idxOf_getElem hnodup i hi'] at hself
  exact (List.getElem?_eq_some_iff.mp hself).2

/-- Without a reordering the shared names have one order. -/
theorem sharedOrder_eq_of_harmless (hbefore : HasDistinctNames before)
    (hafter : HasDistinctNames after) (hnew : HarmlessPairings comparator before after) :
    sharedOrder before after = sharedOrder after before := by
  have hlength := (sharedOrder_perm hbefore hafter).length_eq
  refine eq_of_atRankOf?_eq_self (sharedOrder_nodup hafter before) hlength fun name hname => ?_
  obtain ⟨hin, hin'⟩ := mem_sharedOrder_iff.mp hname
  obtain ⟨new, hmem, rfl⟩ := List.mem_map.mp (hasName_iff.mp hin)
  obtain ⟨position, hposition⟩ := List.mem_iff_getElem?.mp hmem
  obtain ⟨old, hold, hsame⟩ := List.mem_map.mp (hasName_iff.mp hin')
  have hkept := hnew position new hposition
  rw [pairingAt_of_shared hbefore hafter hposition hold hsame, pairingDetails,
    harmless_append_iff, previousName?,
    eraseDups_of_nodup (sharedOrder_nodup hafter before)] at hkept
  -- the rank of a shared name is a rank on the older side too
  have hrank : (sharedOrder after before).idxOf new.name < (sharedOrder before after).length :=
    hlength ▸ List.idxOf_lt_length_of_mem hname
  have hprevious : atRankOf? (sharedOrder before after) (sharedOrder after before) new.name =
      some _ := List.getElem?_eq_getElem hrank
  rw [hprevious, harmless_reorderedDetails_iff.mp hkept.1 _ hprevious]

/-- An older parameter without a namesake is renamed, or else it is removed. -/
theorem exists_unshared_of_nothingRemoved (hafter : HasDistinctNames after)
    (hremoved : NothingRemoved before after) (hold : before[position]? = some old)
    (hunshared : hasName after old.name = false) :
    ∃ new, after[position]? = some new ∧ hasName before new.name = false := by
  obtain ⟨new, hat, hnot⟩ := exists_not_kept_of_unshared hremoved hold hunshared
  refine ⟨new, hat, ?_⟩
  rw [← Bool.not_eq_true, keptAt?_isSome_iff, not_and, Bool.not_eq_true] at hnot
  exact hnot (hafter.hasName_take_eq_false hat)

/-- An added parameter is optional and has no shared name behind it. -/
theorem optional_and_last_of_harmless (hnew : HarmlessPairings comparator before after)
    (hat : after[position]? = some new) (hunshared : hasName before new.name = false)
    (hpaired : ∀ old, before[position]? = some old → hasName after old.name = true) :
    new.isRequired = false ∧
      ∀ later ∈ after.drop (position + 1), hasName before later.name = false := by
  have hadded := hnew position new hat
  rw [pairingAt_of_added hunshared hpaired, pairingDetails] at hadded
  have hbreaking := hadded _ (List.mem_singleton_self _)
  rw [Detail.breaking, Bool.or_eq_false_iff, List.any_eq_false] at hbreaking
  refine ⟨hbreaking.1, fun later hlater => ?_⟩
  exact Bool.eq_false_iff.mpr (hbreaking.2 later hlater)

/-- Every older parameter meets one of its name or, where neither has a namesake,
any one. -/
def InLine (before after : List Parameter) : Prop :=
  ∀ (position : Nat) (old : Parameter), before[position]? = some old →
    ∃ new : Parameter, after[position]? = some new ∧
      (new.name = old.name ∨
        hasName after old.name = false ∧ hasName before new.name = false)

theorem inLine_of_harmless (hbefore : HasDistinctNames before) (hafter : HasDistinctNames after)
    (hnew : HarmlessPairings comparator before after) (hremoved : NothingRemoved before after) :
    InLine before after := by
  have horder := sharedOrder_eq_of_harmless hbefore hafter hnew
  have hmet : ∀ (i : Nat) name, (before.map Parameter.name)[i]? = some name →
      hasName after name = false →
        ∃ name', (after.map Parameter.name)[i]? = some name' ∧ hasName before name' = false := by
    intro i name hi hunshared
    obtain ⟨p, hp, rfl⟩ := getElem?_names_eq_some_iff.mp hi
    obtain ⟨p', hp', hunshared'⟩ :=
      exists_unshared_of_nothingRemoved hafter hremoved hp hunshared
    exact ⟨p'.name, getElem?_name hp', hunshared'⟩
  have hadded : ∀ (i : Nat) name, (after.map Parameter.name)[i]? = some name →
      hasName before name = false →
      (∀ name', (before.map Parameter.name)[i]? = some name' → hasName after name' = true) →
        ∀ later ∈ (after.map Parameter.name).drop (i + 1), hasName before later = false := by
    intro i name hi hunshared hpaired later hlater
    obtain ⟨p, hp, rfl⟩ := getElem?_names_eq_some_iff.mp hi
    rw [← List.map_drop] at hlater
    obtain ⟨p', hp', rfl⟩ := List.mem_map.mp hlater
    refine (optional_and_last_of_harmless hnew hp hunshared ?_).2 p' hp'
    exact fun q hq => hpaired q.name (getElem?_name hq)
  intro position old hold
  obtain ⟨name, hposition, hmeet⟩ :=
    in_line_of_filter_eq horder hmet hadded position old.name (getElem?_name hold)
  obtain ⟨new, hnewAt, rfl⟩ := getElem?_names_eq_some_iff.mp hposition
  exact ⟨new, hnewAt, hmeet⟩

/-- Behind the older parameters no name is shared: it would be in line with its
namesake, which is farther ahead. -/
theorem InLine.unshared_behind (hline : InLine before after) (hafter : HasDistinctNames after)
    (hat : after[position]? = some new) (hbehind : before.length ≤ position) :
    hasName before new.name = false := by
  rw [← Bool.not_eq_true]
  intro hshared
  obtain ⟨old, hmem, hname⟩ := List.mem_map.mp (hasName_iff.mp hshared)
  obtain ⟨j, hj⟩ := List.mem_iff_getElem?.mp hmem
  obtain ⟨met, hmet, hmeet⟩ := hline j old hj
  have hsame : met.name = new.name := by
    rcases hmeet with hmeet | ⟨hmissing, _⟩
    · exact hmeet.trans hname
    · rw [hname, hasName_of_getElem? hat] at hmissing
      simp at hmissing
  have hposition := hafter.position_unique hmet hat hsame
  obtain ⟨hlt, _⟩ := List.getElem?_eq_some_iff.mp hj
  omega

/-- If no detail of a comparison breaks callers, the newer list continues the older
one. -/
theorem continues_of_harmless (hbefore : HasDistinctNames before)
    (hafter : HasDistinctNames after)
    (h : Harmless (compareParameters comparator before after)) :
    Continues comparator before after := by
  obtain ⟨hnew, hremoved⟩ := harmless_compareParameters_iff.mp h
  have hline := inLine_of_harmless hbefore hafter hnew hremoved
  refine ⟨fun i old hold => ?_, fun i new hat hbehind => ?_⟩
  · obtain ⟨new, hat, hmeet⟩ := hline i old hold
    have hkept := hnew i new hat
    rcases hmeet with hname | ⟨hunshared, hunshared'⟩
    · rw [pairingAt_of_shared hbefore hafter hat (List.mem_of_getElem? hold) hname.symm,
        pairingDetails, harmless_append_iff, harmless_parameterDetails_iff] at hkept
      exact ⟨new, hat, .inl hname, hkept.2⟩
    · rw [pairingAt_of_unpaired hunshared' hold hunshared, pairingDetails] at hkept
      have hrest := harmless_parameterDetails_iff.mp fun d hd => hkept d (List.mem_cons_of_mem _ hd)
      rw [hasName_eq_false_iff] at hunshared hunshared'
      exact ⟨new, hat, .inr ⟨hunshared, hunshared'⟩, hrest⟩
  · have hunshared := hline.unshared_behind hafter hat hbehind
    refine (optional_and_last_of_harmless hnew hat hunshared fun old hold => ?_).1
    rw [List.getElem?_eq_none hbehind] at hold
    simp at hold

/-! ## Accepted calls -/

/-- A call may supply this many positional arguments: not more than there are
parameters, and all that are required. -/
def Accepts (parameters : List Parameter) (count : Nat) : Prop :=
  count ≤ parameters.length ∧
    ∀ (position : Nat) (p : Parameter), parameters[position]? = some p → count ≤ position →
      p.isRequired = false

/-- Parameters that continue older ones accept the calls that the older ones do. -/
theorem Continues.accepts (h : Continues comparator before after) {count : Nat}
    (haccepts : Accepts before count) : Accepts after count := by
  obtain ⟨hcount, hoptional⟩ := haccepts
  refine ⟨Nat.le_trans hcount h.length_le, fun position new hat hbeyond => ?_⟩
  rcases Nat.lt_or_ge position before.length with hlt | hge
  · obtain ⟨new', hat', _, _, hrequired⟩ :=
      h.continued position _ (List.getElem?_eq_getElem hlt)
    cases hat.symm.trans hat'
    have hold := hoptional position _ (List.getElem?_eq_getElem hlt) hbeyond
    rw [← Bool.not_eq_true] at hold ⊢
    exact fun hnew => hold (hrequired hnew)
  · exact h.added_optional position new hat hge

end ApiDrift.Signature
