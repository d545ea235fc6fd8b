import ApiDrift.Proofs.Signature.Equivalence
import ApiDrift.Proofs.TypeRelation.Order
import Mathlib.Data.Fintype.EquivFin

set_option autoImplicit false

/-!
# Parameter lists that get shorter

Older parameters are paired by name, and where a name is repeated in the older list they
share one partner.  So a list can get shorter without a removal: a repeated name that is kept
once counts as kept.  If the shared names are distinct no parameter gets lost, since each is
found at a place of its own.  A reordering gives away most repetitions.  The one that is never
noticed is of the last parameter: a shorter list may then keep the name and give a new one to
all others.
-/

namespace ApiDrift.Signature

variable {comparator : TypeComparator} {before after : List Parameter} {position : Nat}
  {old : Parameter} {d : Detail}

/-! ## Places of older parameters -/

/-- Where an older parameter is found in the newer list: at the first parameter of its name,
or at its own position if there is none. -/
def foundAt (after : List Parameter) (position : Nat) (old : Parameter) : Nat :=
  if hasName after old.name then firstPosition after old.name else position

theorem foundAt_of_shared (h : hasName after old.name = true) :
    foundAt after position old = firstPosition after old.name := if_pos h

theorem foundAt_of_unshared (h : hasName after old.name = false) :
    foundAt after position old = position := if_neg (Bool.eq_false_iff.mp h)

/-- The first parameter of a shared name is kept. -/
theorem keptAt?_firstPosition_isSome {name : String} (hold : hasName before name = true)
    (after : List Parameter) :
    (keptAt? before after (firstPosition after name) name).isSome = true :=
  keptAt?_isSome_iff.mpr ⟨hasName_take_firstPosition after name, hold⟩

theorem foundAt_lt (hremoved : NothingRemoved before after) (hold : before[position]? = some old) :
    foundAt after position old < after.length := by
  cases hshared : hasName after old.name with
  | true =>
    obtain ⟨new, hat, _⟩ := exists_at_firstPosition hshared
    rw [foundAt_of_shared hshared]
    exact (List.getElem?_eq_some_iff.mp hat).1
  | false =>
    obtain ⟨new, hat, _⟩ := exists_not_kept_of_unshared hremoved hold hshared
    rw [foundAt_of_unshared hshared]
    exact (List.getElem?_eq_some_iff.mp hat).1

/-- A shared name that is not repeated stands at one position. -/
theorem position_unique_of_sharedOrder_nodup (hnodup : (sharedOrder before after).Nodup)
    {i j : Nat} {p q : Parameter} (hp : before[i]? = some p) (hq : before[j]? = some q)
    (hname : p.name = q.name) (hshared : hasName after p.name = true) : i = j := by
  have hpairwise := List.pairwise_filter.mp hnodup
  rw [List.pairwise_iff_getElem] at hpairwise
  have hdifferent : ∀ {i j : Nat} {p q : Parameter}, before[i]? = some p → before[j]? = some q →
      p.name = q.name → hasName after p.name = true → ¬ i < j := by
    intro i j p q hp hq hname hshared hlt
    obtain ⟨hi, rfl⟩ := List.getElem?_eq_some_iff.mp hp
    obtain ⟨hj, rfl⟩ := List.getElem?_eq_some_iff.mp hq
    refine hpairwise i j (by simpa using hi) (by simpa using hj) hlt ?_ ?_ ?_
    · simpa using hshared
    · simpa [← hname] using hshared
    · simpa using hname
  have hshared' : hasName after q.name = true := hname ▸ hshared
  exact Nat.le_antisymm (Nat.le_of_not_lt (hdifferent hq hp hname.symm hshared'))
    (Nat.le_of_not_lt (hdifferent hp hq hname hshared))

/-- No two older parameters are found at one place. -/
theorem foundAt_injective (hnodup : (sharedOrder before after).Nodup)
    (hremoved : NothingRemoved before after) {i j : Nat} {p q : Parameter}
    (hp : before[i]? = some p) (hq : before[j]? = some q)
    (hfound : foundAt after i p = foundAt after j q) : i = j := by
  -- the first parameter of a shared name is kept, which one at an unshared position is not
  have hapart : ∀ {i j : Nat} {p q : Parameter}, before[i]? = some p → before[j]? = some q →
      hasName after p.name = true → hasName after q.name = false →
        foundAt after i p ≠ foundAt after j q := by
    intro i j p q hp hq hshared hunshared hfound
    rw [foundAt_of_shared hshared, foundAt_of_unshared hunshared] at hfound
    obtain ⟨new, hat, hnot⟩ := exists_not_kept_of_unshared hremoved hq hunshared
    obtain ⟨new', hat', hname⟩ := exists_at_firstPosition hshared
    rw [hfound] at hat'
    cases hat.symm.trans hat'
    rw [hname, ← hfound, keptAt?_firstPosition_isSome (hasName_of_getElem? hp) after] at hnot
    cases hnot
  cases hshared : hasName after p.name with
  | true =>
    cases hshared' : hasName after q.name with
    | true =>
      rw [foundAt_of_shared hshared, foundAt_of_shared hshared', firstPosition_inj hshared]
        at hfound
      exact position_unique_of_sharedOrder_nodup hnodup hp hq hfound hshared
    | false => exact absurd hfound (hapart hp hq hshared hshared')
  | false =>
    cases hshared' : hasName after q.name with
    | true => exact absurd hfound.symm (hapart hq hp hshared' hshared)
    | false =>
      rw [foundAt_of_unshared hshared, foundAt_of_unshared hshared'] at hfound
      exact hfound

/-- A list that repeats no shared name and loses nothing does not get shorter. -/
theorem length_le_of_nothingRemoved (hnodup : (sharedOrder before after).Nodup)
    (hremoved : NothingRemoved before after) : before.length ≤ after.length := by
  have hold : ∀ i : Fin before.length, before[i.val]? = some before[i] :=
    fun i => List.getElem?_eq_getElem i.isLt
  let place : Fin before.length → Fin after.length :=
    fun i => ⟨foundAt after i before[i], foundAt_lt hremoved (hold i)⟩
  have hinjective : Function.Injective place := fun i j hsame =>
    Fin.ext (foundAt_injective hnodup hremoved (hold i) (hold j) (Fin.val_eq_of_eq hsame))
  simpa using Fintype.card_le_of_injective place hinjective

/-! ## A last parameter of its own name -/

/-- Without a reordering a kept parameter has its own name at its rank. -/
theorem previous_eq_of_kept (hnew : HarmlessPairings comparator before after) {new : Parameter}
    (hat : after[position]? = some new)
    (hkept : (keptAt? before after position new.name).isSome = true) {previous : String}
    (hprevious : previousName? before after new.name = some previous) : previous = new.name := by
  obtain ⟨old, hold⟩ := Option.isSome_iff_exists.mp hkept
  have hharmless := hnew position new hat
  rw [pairingAt, hold, pairingDetails, harmless_append_iff, harmless_reorderedDetails_iff]
    at hharmless
  exact hharmless.1 previous hprevious

/-- Without a reordering a shared name has itself at its rank. -/
theorem previousName?_eq_self_of_harmless {name : String} (hold : hasName before name = true)
    (hshared : hasName after name = true) (hnew : HarmlessPairings comparator before after) :
    previousName? before after name = some name := by
  have hprevious : previousName? before after name = some _ :=
    List.getElem?_eq_getElem (idxOf_lt_length_sharedOrder hold hshared)
  obtain ⟨new, hat, hname⟩ := exists_at_firstPosition hshared
  subst hname
  have hkept := keptAt?_firstPosition_isSome hold after
  rw [hprevious, previous_eq_of_kept hnew hat hkept hprevious]

variable {init : List Parameter} {last : Parameter}

/-- If a last name that is not repeated has itself at its rank, no shared name is repeated:
the ranks reach as far as the shared names of the older list. -/
theorem sharedOrder_nodup_of_harmless (hown : last.name ∉ init.map Parameter.name)
    (hshared : hasName after last.name = true)
    (hnew : HarmlessPairings comparator (init ++ [last]) after) :
    (sharedOrder (init ++ [last]) after).Nodup := by
  have hold : hasName (init ++ [last]) last.name = true := hasName_iff.mpr (by simp)
  have holder : sharedOrder (init ++ [last]) after = sharedOrder init after ++ [last.name] := by
    simp [sharedOrder, List.filter_append, hshared]
  have hself := previousName?_eq_self_of_harmless hold hshared hnew
  have hrank := idxOf_shared_lt hold hshared
  have hend : (sharedOrder init after).length ≤
      (sharedOrder after (init ++ [last])).eraseDups.idxOf last.name := by
    by_contra hahead
    rw [previousName?, atRankOf?, holder, List.getElem?_append_left (Nat.lt_of_not_le hahead)]
      at hself
    exact hown (List.mem_of_mem_filter (List.mem_of_getElem? hself))
  have hlength : (sharedOrder (init ++ [last]) after).length ≤
      (sharedOrder after (init ++ [last])).eraseDups.length := by
    rw [holder, List.length_append, List.length_singleton]
    exact Nat.le_trans (Nat.succ_le_succ hend) hrank
  have hperm := (eraseDups_sharedOrder_subperm _ _).perm_of_length_le hlength
  exact hperm.nodup_iff.mp (eraseDups_nodup _)

/-- A comparison that breaks nothing does not lose a last parameter of its own name, nor then
any other one. -/
theorem length_le_of_harmless (hown : last.name ∉ init.map Parameter.name)
    (h : Harmless (compareParameters comparator (init ++ [last]) after)) :
    (init ++ [last]).length ≤ after.length := by
  obtain ⟨hnew, hremoved⟩ := harmless_compareParameters_iff.mp h
  by_contra hshorter
  have hshared : hasName after last.name = true := by
    have hlast : (init ++ [last])[init.length]? = some last := by simp
    by_contra hunshared
    obtain ⟨new, hat, _⟩ :=
      exists_not_kept_of_unshared hremoved hlast (Bool.eq_false_iff.mpr hunshared)
    obtain ⟨hlt, _⟩ := List.getElem?_eq_some_iff.mp hat
    rw [List.length_append, List.length_singleton] at hshorter
    omega
  have hnodup := sharedOrder_nodup_of_harmless hown hshared hnew
  exact hshorter (length_le_of_nothingRemoved hnodup hremoved)

/-! ## A last parameter of a repeated name -/

/-- A parameter under another name, which callers may leave out. -/
def waived (fresh : String) (p : Parameter) : Parameter :=
  { p with name := fresh, isOptional := true }

/-- A list without its last parameter, which takes the place of the first one of its name.
Callers may leave out all others, which get a new name. -/
def shortened (init : List Parameter) (last : Parameter) (fresh : String) : List Parameter :=
  (init.map (waived fresh)).set (firstPosition init last.name) last

variable {fresh : String} {p : Parameter}

theorem isRequired_waived (fresh : String) (p : Parameter) :
    (waived fresh p).isRequired = false := rfl

theorem length_shortened (init : List Parameter) (last : Parameter) (fresh : String) :
    (shortened init last fresh).length = init.length := by
  rw [shortened, List.length_set, List.length_map]

theorem getElem?_shortened_of_ne (h : position ≠ firstPosition init last.name) :
    (shortened init last fresh)[position]? = init[position]?.map (waived fresh) := by
  rw [shortened, List.getElem?_set_ne h.symm, List.getElem?_map]

/-- The last name is an earlier one too, and the new name is none of the list. -/
structure Repeats (init : List Parameter) (last : Parameter) (fresh : String) : Prop where
  repeated : hasName init last.name = true
  fresh : hasName (init ++ [last]) fresh = false

namespace Repeats

variable (h : Repeats init last fresh)
include h

theorem name_ne_fresh (hp : p ∈ init ++ [last]) : p.name ≠ fresh := by
  rintro rfl
  exact hasName_eq_false_iff.mp h.fresh (List.mem_map_of_mem hp)

theorem getElem?_firstPosition :
    (shortened init last fresh)[firstPosition init last.name]? = some last := by
  obtain ⟨p, hat, _⟩ := exists_at_firstPosition h.repeated
  refine List.getElem?_set_self ?_
  rw [List.length_map]
  exact (List.getElem?_eq_some_iff.mp hat).1

/-- A parameter of the shorter list is the last one or a waived one. -/
theorem cases_shortened {new : Parameter}
    (hat : (shortened init last fresh)[position]? = some new) :
    (position = firstPosition init last.name ∧ new = last) ∨
      position ≠ firstPosition init last.name ∧
        ∃ p, init[position]? = some p ∧ new = waived fresh p := by
  by_cases hposition : position = firstPosition init last.name
  · rw [hposition, h.getElem?_firstPosition] at hat
    exact .inl ⟨hposition, (Option.some.inj hat).symm⟩
  · rw [getElem?_shortened_of_ne hposition] at hat
    obtain ⟨p, hp, rfl⟩ := Option.map_eq_some_iff.mp hat
    exact .inr ⟨hposition, p, hp, rfl⟩

/-- The last name is the only one that goes on. -/
theorem hasName_shortened_iff (hp : p ∈ init ++ [last]) :
    hasName (shortened init last fresh) p.name = true ↔ p.name = last.name := by
  rw [hasName_iff, List.mem_map]
  constructor
  · rintro ⟨new, hnew, hname⟩
    obtain ⟨position, hat⟩ := List.mem_iff_getElem?.mp hnew
    obtain ⟨_, rfl⟩ | ⟨_, q, _, rfl⟩ := h.cases_shortened hat
    · exact hname.symm
    · exact absurd hname.symm (h.name_ne_fresh hp)
  · intro hname
    exact ⟨last, List.mem_of_getElem? h.getElem?_firstPosition, hname.symm⟩

theorem keptAt?_last :
    keptAt? (init ++ [last]) (shortened init last fresh) (firstPosition init last.name)
      last.name = some last := by
  have hahead : hasName ((shortened init last fresh).take (firstPosition init last.name))
      last.name = false := by
    rw [hasName_eq_false_iff]
    intro hmem
    obtain ⟨new, hnew, hname⟩ := List.mem_map.mp hmem
    obtain ⟨position, hposition⟩ := List.mem_iff_getElem?.mp hnew
    rw [List.getElem?_take] at hposition
    split at hposition
    · rename_i hlt
      obtain ⟨rfl, _⟩ | ⟨_, p, _, rfl⟩ := h.cases_shortened hposition
      · exact Nat.lt_irrefl _ hlt
      · exact h.name_ne_fresh (by simp) hname.symm
    · cases hposition
  rw [keptAt?, hahead, lastNamed?, List.reverse_append]
  simp

/-- Behind the last parameter there are only waived ones. -/
theorem not_shifts (hbehind : firstPosition init last.name < position) :
    (((shortened init last fresh).drop (position + 1)).any
      fun p => hasName (init ++ [last]) p.name) = false := by
  refine List.any_eq_false.mpr fun new hnew => ?_
  obtain ⟨i, hi⟩ := List.mem_iff_getElem?.mp hnew
  rw [List.getElem?_drop] at hi
  obtain ⟨hat, _⟩ | ⟨_, p, _, rfl⟩ := h.cases_shortened hi
  · omega
  · exact Bool.eq_false_iff.mp h.fresh

/-- The last parameter is kept and has its own name at its rank, since no other name is
shared. -/
theorem harmless_last (hself : comparator.relate last.type last.type ≠ .narrowed) :
    Harmless (pairingDetails comparator last (firstPosition init last.name)
      (pairingAt (init ++ [last]) (shortened init last fresh)
        (previousName? (init ++ [last]) (shortened init last fresh) last.name)
        (firstPosition init last.name) last.name)) := by
  rw [pairingAt, h.keptAt?_last, pairingDetails, harmless_append_iff,
    harmless_reorderedDetails_iff, harmless_parameterDetails_iff]
  refine ⟨fun previous hprevious => ?_, hself, id⟩
  obtain ⟨hold, hshared⟩ := mem_sharedOrder_iff.mp (List.mem_of_getElem? hprevious)
  obtain ⟨p, hp, rfl⟩ := List.mem_map.mp (hasName_iff.mp hold)
  exact (h.hasName_shortened_iff hp).mp hshared

/-- A waived parameter renames the older one at its position, or it is added behind the last
one. -/
theorem harmless_waived (hp : init[position]? = some p)
    (hposition : position ≠ firstPosition init last.name)
    (hself : comparator.relate p.type p.type ≠ .narrowed) (previous : Option String) :
    Harmless (pairingDetails comparator (waived fresh p) position
      (pairingAt (init ++ [last]) (shortened init last fresh) previous position
        (waived fresh p).name)) := by
  obtain ⟨hlt, _⟩ := List.getElem?_eq_some_iff.mp hp
  have hold : (init ++ [last])[position]? = some p := by rw [List.getElem?_append_left hlt, hp]
  have hshared := h.hasName_shortened_iff (List.mem_of_getElem? hold)
  by_cases hlast : p.name = last.name
  · have hbehind : firstPosition init last.name < position :=
      Nat.lt_of_le_of_ne (hlast ▸ firstPosition_le hp) hposition.symm
    have hpaired : ∀ old, (init ++ [last])[position]? = some old →
        hasName (shortened init last fresh) old.name = true := by
      intro old hold'
      cases hold.symm.trans hold'
      exact hshared.mpr hlast
    rw [pairingAt_of_added h.fresh hpaired, pairingDetails, isRequired_waived,
      h.not_shifts hbehind]
    exact List.forall_mem_singleton.mpr rfl
  · have hunpaired : hasName (shortened init last fresh) p.name = false := by
      rw [← Bool.not_eq_true, hshared]
      exact hlast
    rw [pairingAt_of_unpaired h.fresh hold hunpaired, pairingDetails]
    refine List.forall_mem_cons.mpr ⟨rfl, harmless_parameterDetails_iff.mpr ⟨hself, ?_⟩⟩
    rw [isRequired_waived]
    exact fun hrequired => absurd hrequired Bool.false_ne_true

/-- The older parameters of other names are renamed, and the last name goes on. -/
theorem nothingRemoved : NothingRemoved (init ++ [last]) (shortened init last fresh) := by
  intro position old hold
  have hshared := h.hasName_shortened_iff (List.mem_of_getElem? hold)
  by_cases hlast : old.name = last.name
  · rw [isRemovedAt, hshared.mpr hlast, Bool.not_true, Bool.false_and]
  · have hp : init[position]? = some old := by
      rcases Nat.lt_or_ge position init.length with hlt | hge
      · rwa [List.getElem?_append_left hlt] at hold
      · rw [List.getElem?_append_right hge, List.getElem?_singleton] at hold
        split at hold
        · exact absurd (congrArg Parameter.name (Option.some.inj hold).symm) hlast
        · cases hold
    have hposition : position ≠ firstPosition init last.name := by
      rintro rfl
      obtain ⟨first, hat, hname⟩ := exists_at_firstPosition h.repeated
      cases hp.symm.trans hat
      exact hlast hname
    have hnot : keptAt? (init ++ [last]) (shortened init last fresh) position
        (waived fresh old).name = none := keptAt?_eq_none_of_unshared h.fresh
    rw [isRemovedAt, getElem?_shortened_of_ne hposition, hp, Option.map_some, Option.all_some,
      hnot, Option.isSome_none, Bool.and_false]

/-- The shorter list breaks nothing. -/
theorem harmless_shortened (hself : ∀ type, comparator.relate type type ≠ .narrowed) :
    Harmless (compareParameters comparator (init ++ [last]) (shortened init last fresh)) := by
  refine harmless_compareParameters_iff.mpr ⟨fun position new hat => ?_, h.nothingRemoved⟩
  obtain ⟨rfl, rfl⟩ | ⟨hposition, p, hp, rfl⟩ := h.cases_shortened hat
  · exact h.harmless_last (hself _)
  · exact h.harmless_waived hp hposition (hself _) _

end Repeats

/-! ## Symbols that get shorter -/

/-- A symbol with a repeated last parameter has a shorter version that breaks nothing. -/
theorem exists_shorter_harmless {before : Symbol} (hparameters : before.parameters = init ++ [last])
    (hrepeated : last.name ∈ init.map Parameter.name) :
    ∃ after : Symbol, after.parameters.length < before.parameters.length ∧
      Harmless (compareSymbols .heuristic before after) := by
  obtain ⟨fresh, hfresh⟩ :=
    Infinite.exists_notMem_finset ((init ++ [last]).map Parameter.name).toFinset
  rw [List.mem_toFinset, ← hasName_eq_false_iff] at hfresh
  have hrepeats : Repeats init last fresh := ⟨hasName_iff.mpr hrepeated, hfresh⟩
  have hself : ∀ type, TypeComparator.heuristic.relate type type ≠ .narrowed := by
    intro type hnarrowed
    rw [TypeComparator.relate_self] at hnarrowed
    cases hnarrowed
  refine ⟨{ before with parameters := shortened init last fresh }, ?_, ?_⟩
  · rw [hparameters, length_shortened, List.length_append]
    exact Nat.lt_succ_self _
  · refine harmless_compareSymbols_iff.mpr ⟨?_, .inl (TypeComparator.relate_self _)⟩
    rw [hparameters]
    exact hrepeats.harmless_shortened hself

/-- Every shorter version of a symbol breaks callers exactly if the name of its last parameter
is not repeated. -/
theorem compareSymbols_breaks_shorter_iff (before : Symbol) :
    (∀ (comparator : TypeComparator) (after : Symbol),
        after.parameters.length < before.parameters.length →
          ∃ d ∈ compareSymbols comparator before after, d.breaking = true) ↔
      ∀ (init : List Parameter) (last : Parameter), before.parameters = init ++ [last] →
        last.name ∉ init.map Parameter.name := by
  constructor
  · intro hbreaks init last hparameters hrepeated
    obtain ⟨after, hshorter, hharmless⟩ := exists_shorter_harmless hparameters hrepeated
    exact not_harmless_iff.mpr (hbreaks .heuristic after hshorter) hharmless
  · intro hown comparator after hshorter
    rw [← not_harmless_iff]
    intro hharmless
    have hnonempty : before.parameters ≠ [] := List.ne_nil_of_length_pos (by omega)
    have hparameters := (List.dropLast_append_getLast hnonempty).symm
    have hkept := (harmless_compareSymbols_iff.mp hharmless).1
    rw [hparameters] at hkept
    have hle := length_le_of_harmless (hown _ _ hparameters) hkept
    rw [← hparameters] at hle
    omega

/-- One of two parameters of one name is dropped, and the comparison finds nothing. -/
theorem compareSymbols_shorter_not_always_breaking :
    ¬ ∀ before after : Symbol, after.parameters.length < before.parameters.length →
      ∃ d ∈ compareSymbols .heuristic before after, d.breaking = true := by
  intro h
  let before : Symbol :=
    { id := "#f", name := "f", parameters := [{ name := "a" }, { name := "a" }] }
  let after : Symbol := { id := "#f", name := "f", parameters := [{ name := "a" }] }
  have hshorter : after.parameters.length < before.parameters.length := by decide
  have hnothing : compareSymbols .heuristic before after = [] := by decide +kernel
  obtain ⟨d, hd, _⟩ := h before after hshorter
  rw [hnothing] at hd
  cases hd

end ApiDrift.Signature
