import ApiDrift.Proofs.CallGraph.Assembly

set_option autoImplicit false

/-!
# References and what they stand for

A reference is put together from a module path and a name, and it is read back at its first
hash sign.  The two are inverse to each other as long as the path is not empty and holds no
hash sign.  So a placeholder, which is made of a reference alone, stands for the module and
the name that the reference was made of, and it is found by them.
-/

namespace ApiDrift

/-! ## References read back -/

namespace Reference

variable {module name ref : String}

theorem toList_ofName (module name : String) :
    (ofName module name).toList = module.toList ++ '#' :: name.toList := by
  rw [ofName, String.toList_append, String.toList_append, List.append_assoc]
  rfl

theorem eq_append_of_splitChars? {cs path name : List Char}
    (h : splitChars? cs = some (path, name)) : cs = path ++ '#' :: name := by
  unfold splitChars? at h
  split at h
  · rename_i c front sign back hfront hback
    cases h
    have hsign : sign = '#' := by
      have hhead := List.head?_dropWhile_not (· ≠ '#') cs
      rw [hback] at hhead
      simpa using hhead
    rw [← hsign, ← hfront, ← hback, List.takeWhile_append_dropWhile]
  · cases h

/-- A reference is made of the module and the name that it stands for. -/
theorem ofName_of_split? (h : split? ref = some (module, name)) : ofName module name = ref := by
  obtain ⟨⟨path, rest⟩, hsplit, hparts⟩ := Option.map_eq_some_iff.mp h
  cases hparts
  apply String.toList_inj.mp
  rw [toList_ofName, String.toList_ofList, String.toList_ofList, eq_append_of_splitChars? hsplit]

/-- Characters are split at the first hash sign, whatever stands behind it. -/
theorem splitChars?_append {path name : List Char} (hpath : path ≠ []) (hsign : '#' ∉ path) :
    splitChars? (path ++ '#' :: name) = some (path, name) := by
  have hplain : ∀ c ∈ path, decide (c ≠ '#') = true :=
    fun c hc => decide_eq_true fun hsame => hsign (hsame ▸ hc)
  rw [splitChars?, List.takeWhile_append_of_pos hplain, List.dropWhile_append_of_pos hplain,
    List.takeWhile_cons_of_neg (by simp), List.dropWhile_cons_of_neg (by simp), List.append_nil]
  cases path with
  | nil => exact absurd rfl hpath
  | cons c path => rfl

/-- A reference stands for the module and the name that it is made of. -/
theorem split?_ofName (hmodule : module ≠ "") (hsign : '#' ∉ module.toList) (name : String) :
    split? (ofName module name) = some (module, name) := by
  have hpath : module.toList ≠ [] := fun hnil => hmodule (String.toList_eq_nil_iff.mp hnil)
  simp only [split?, toList_ofName, splitChars?_append hpath hsign, Option.map_some,
    String.ofList_toList]

/-- A text with a hash sign behind its start is the reference of a module and a name. -/
theorem exists_eq_ofName (hsign : '#' ∈ ref.toList) (hstart : ref.toList.head? ≠ some '#') :
    ∃ module name, ref = ofName module name ∧ module ≠ "" ∧ '#' ∉ module.toList := by
  obtain ⟨path, rest, hsplit, hfirst⟩ := List.eq_append_cons_of_mem hsign
  refine ⟨String.ofList path, String.ofList rest, ?_, ?_, ?_⟩
  · apply String.toList_inj.mp
    rw [toList_ofName, String.toList_ofList, String.toList_ofList, hsplit]
  · intro hempty
    have hpath : path = [] := by
      rw [← String.toList_ofList (l := path), hempty]
      rfl
    rw [hsplit, hpath] at hstart
    exact hstart rfl
  · rwa [String.toList_ofList]

end Reference

namespace CallGraph

variable {g : CallGraph} {nodes : List Node} {edges : List Edge} {ref module symbol : String}

/-! ## Placeholders -/

/-- A placeholder with a module stands under the reference of its module and its name. -/
theorem ofName_placeholder (h : (placeholder ref).module ≠ "") :
    Reference.ofName (placeholder ref).module (placeholder ref).symbol = ref := by
  unfold placeholder at h ⊢
  split
  · rename_i hsplit
    exact Reference.ofName_of_split? hsplit
  · rename_i hsplit
    simp [hsplit] at h

theorem placeholder_ofName (hmodule : module ≠ "") (hsign : '#' ∉ module.toList)
    (symbol : String) :
    placeholder (Reference.ofName module symbol) =
      { id := Reference.ofName module symbol, symbol := symbol, module := module } := by
  rw [placeholder, Reference.split?_ofName hmodule hsign]

/-- An end of a call without a given record has a placeholder, but for its flags. -/
theorem exists_node?_build (hnew : ref ∉ nodes.map Node.id) (hend : ref ∈ endpoints edges) :
    ∃ record, (build nodes edges).node? ref = some record ∧
      record.module = (placeholder ref).module ∧ record.symbol = (placeholder ref).symbol := by
  rw [node?_build, given?_eq_none_iff.mpr hnew, Option.none_or, if_pos hend]
  exact ⟨_, rfl, rfl, rfl⟩

/-! ## Modules of references -/

/-- A reference is in the module that it is made of, unless a record says otherwise. -/
theorem moduleOf?_ofName (hmodule : module ≠ "") (hsign : '#' ∉ module.toList)
    (hrecord : ∀ record ∈ g.node? (Reference.ofName module symbol),
      record.module = "" ∨ record.module = module) :
    g.moduleOf? (Reference.ofName module symbol) = some module := by
  have hread := Reference.split?_ofName hmodule hsign symbol
  unfold moduleOf?
  cases hnode : g.node? (Reference.ofName module symbol) with
  | none => simp [hread]
  | some record =>
    rcases hrecord record hnode with hsame | hsame <;>
      simp [Option.filter_some, hsame, hmodule, hread]

/-- Only given records can put a reference into another module. -/
theorem moduleOf?_build_ofName (hmodule : module ≠ "") (hsign : '#' ∉ module.toList)
    (hnew : Reference.ofName module symbol ∉ nodes.map Node.id) :
    (build nodes edges).moduleOf? (Reference.ofName module symbol) = some module := by
  refine moduleOf?_ofName hmodule hsign fun record hrecord => .inr ?_
  rw [node?_build, given?_eq_none_iff.mpr hnew, Option.none_or] at hrecord
  split at hrecord
  · cases hrecord
    exact congrArg Node.module (placeholder_ofName hmodule hsign symbol)
  · cases hrecord

/-! ## Finding by module and name -/

/-- A reference that is missing, empty or not known is passed over. -/
theorem find?_of_unresolved {ref : Option String}
    (h : ∀ r ∈ ref, ¬ (r ≠ "" ∧ g.contains r = true)) :
    g.find? ref module symbol = g.findNamed? module symbol := by
  have hfilter : ref.filter (fun r => r ≠ "" && g.contains r) = none := by
    refine Option.filter_eq_none_iff.mpr fun r hr => ?_
    simpa using h r hr
  rw [find?, hfilter]

theorem findNamed?_of_contains (hmodule : module ≠ "") (hsymbol : symbol ≠ "")
    (hknown : g.contains (Reference.ofName module symbol) = true) :
    g.findNamed? module symbol = some (Reference.ofName module symbol) := by
  rw [findNamed?, if_neg (not_or.mpr ⟨hmodule, hsymbol⟩), if_pos hknown]

/-! ## Main statement -/

/-- The placeholder of a reference has the module and the name that make up the reference
again, and the reference is in its module wherever no record is of another one.  The other way
round, a module and a name whose reference is an end of a call are those of its record, and
the record is found by them when there is no other reference to go by. -/
theorem references_name_placeholders :
    (∀ ref : String, '#' ∈ ref.toList → ref.toList.head? ≠ some '#' →
      let made := placeholder ref
      Reference.ofName made.module made.symbol = ref ∧
      (∀ g : CallGraph,
        (∀ record ∈ g.node? ref, record.module = "" ∨ record.module = made.module) →
          g.moduleOf? ref = some made.module) ∧
      ∀ (nodes : List Node) (edges : List Edge), ref ∉ nodes.map Node.id →
        (build nodes edges).moduleOf? ref = some made.module ∧
        (ref ∈ endpoints edges → ∃ record, (build nodes edges).node? ref = some record ∧
          record.module = made.module ∧ record.symbol = made.symbol)) ∧
    ∀ module symbol : String, module ≠ "" → '#' ∉ module.toList → symbol ≠ "" →
      let id := Reference.ofName module symbol
      ∀ edges : List Edge, id ∈ endpoints edges →
        let g := build [] edges
        (∃ record, g.node? id = some record ∧ record.module = module ∧ record.symbol = symbol) ∧
        g.moduleOf? id = some module ∧
        ∀ ref : Option String,
          ref = none ∨ ref = some "" ∨ (∃ r, ref = some r ∧ g.contains r = false) →
            g.find? ref module symbol = some id := by
  constructor
  · intro ref hsign hstart
    obtain ⟨module, symbol, rfl, hmodule, hplain⟩ := Reference.exists_eq_ofName hsign hstart
    rw [placeholder_ofName hmodule hplain]
    refine ⟨rfl, fun g hrecord => moduleOf?_ofName hmodule hplain hrecord, ?_⟩
    intro nodes edges hnew
    refine ⟨moduleOf?_build_ofName hmodule hplain hnew, fun hend => ?_⟩
    have hmade := exists_node?_build hnew hend
    rwa [placeholder_ofName hmodule hplain] at hmade
  · intro module symbol hmodule hplain hsymbol id edges hend g
    have hnew : id ∉ ([] : List Node).map Node.id := List.not_mem_nil
    have hmade := exists_node?_build hnew hend
    rw [placeholder_ofName hmodule hplain] at hmade
    refine ⟨hmade, moduleOf?_build_ofName hmodule hplain hnew, ?_⟩
    intro ref hunresolved
    have hpassed : ∀ r ∈ ref, ¬ (r ≠ "" ∧ g.contains r = true) := by
      rintro r hr ⟨hnonempty, hknown⟩
      obtain rfl | rfl | ⟨r', rfl, hmissing⟩ := hunresolved
      · cases hr
      · exact hnonempty (Option.some.inj hr).symm
      · rw [← Option.some.inj hr, hmissing] at hknown
        cases hknown
    rw [find?_of_unresolved hpassed]
    exact findNamed?_of_contains hmodule hsymbol (contains_build_iff.mpr (.inr hend))

/-- Only the first of several hash signs divides a reference, also where it is the last
character; the symbol behind it is found by its module and name if another reference is not
known. -/
theorem references_name_placeholders_hashes :
    let edges : List Edge := [⟨"a/b#f#g", "a/b#", 1, false⟩]
    let g := build [] edges
    (Reference.ofName (placeholder "a/b#").module (placeholder "a/b#").symbol = "a/b#" ∧
      g.moduleOf? "a/b#" = some "a/b") ∧
    (∃ record, g.node? "a/b#f#g" = some record ∧ record.module = "a/b" ∧ record.symbol = "f#g") ∧
    g.find? (some "#f") "a/b" "f#g" = some "a/b#f#g" := by
  intro edges g
  obtain ⟨hwritten, hread⟩ := references_name_placeholders
  obtain ⟨hsame, _, hbuilt⟩ := hwritten "a/b#" (by decide) (by decide)
  obtain ⟨hmade, _, hfound⟩ := hread "a/b" "f#g" (by decide) (by decide) (by decide) edges
    (by decide)
  refine ⟨⟨hsame, ?_⟩, hmade, hfound (some "#f") (.inr (.inr ⟨"#f", rfl, by decide⟩))⟩
  exact (hbuilt [] edges List.not_mem_nil).1

end CallGraph

end ApiDrift
