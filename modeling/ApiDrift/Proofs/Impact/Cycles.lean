import ApiDrift.Proofs.Impact.Growth

set_option autoImplicit false

/-!
# The blast radius along calls

Without a limit the blast radius of a symbol counts all symbols that lead to it, itself
excepted.  What leads to the source of a call leads to its target too, so the blast
radius does not shrink along calls.  It stays the same exactly along the recursive ones:
two symbols on a cycle have different callers, but each of them leads to both.
-/

namespace ApiDrift

namespace CallGraph

variable {g : CallGraph} {u v ref : String} {k : Nat}

/-- The symbols from which calls lead to a symbol, the symbol itself included. -/
def leadingTo (g : CallGraph) (ref : String) : Set String :=
  {n | ∃ k, Walk g.calls.Links k n ref}

theorem self_mem_leadingTo (g : CallGraph) (ref : String) : ref ∈ g.leadingTo ref :=
  ⟨0, .nil ref⟩

theorem leadingTo_subset (h : Walk g.calls.Links k u v) : g.leadingTo u ⊆ g.leadingTo v := by
  intro n hn
  obtain ⟨j, hj⟩ := hn
  exact ⟨j + k, hj.append h⟩

/-- If one symbol leads to another, the same symbols lead to both exactly if the other
one leads back. -/
theorem leadingTo_eq_iff (h : Walk g.calls.Links k u v) :
    g.leadingTo u = g.leadingTo v ↔ ∃ n, Walk g.calls.Links n v u := by
  refine ⟨fun hsame => ?_, fun hback => ?_⟩
  · have hv : v ∈ g.leadingTo v := self_mem_leadingTo g v
    rwa [← hsame] at hv
  · obtain ⟨n, hback⟩ := hback
    exact Set.Subset.antisymm (leadingTo_subset h) (leadingTo_subset hback)

theorem leadingTo_eq_insert (g : CallGraph) (ref : String) :
    g.leadingTo ref = insert ref (g.callersWithin none ref) := by
  ext n
  rw [Set.mem_insert_iff]
  by_cases hself : n = ref
  · subst hself
    exact iff_of_true (self_mem_leadingTo g n) (.inl rfl)
  · rw [or_iff_right hself]
    change (∃ k, Walk g.calls.Links k n ref) ↔ n ≠ ref ∧ ∃ k, _
    rw [← exists_isDistance_iff]
    simp [hself]

theorem callersWithin_none_finite (g : CallGraph) (ref : String) :
    (g.callersWithin none ref).Finite := by
  refine (List.finite_toSet (Impact.allCallers none g ref)).subset fun n hn => ?_
  exact (Impact.mem_allCallers_iff (by simp)).mpr hn

theorem leadingTo_finite (g : CallGraph) (ref : String) : (g.leadingTo ref).Finite := by
  rw [leadingTo_eq_insert]
  exact (callersWithin_none_finite g ref).insert ref

theorem ncard_leadingTo (g : CallGraph) (ref : String) :
    (g.leadingTo ref).ncard = (Impact.allCallers none g ref).length + 1 := by
  have hfresh : ref ∉ g.callersWithin none ref := fun hself => hself.1 rfl
  rw [leadingTo_eq_insert, Set.ncard_insert_of_notMem hfresh (callersWithin_none_finite g ref),
    Impact.ncard_callersWithin (by simp)]

/-- The number of symbols that lead to a symbol does not shrink from one symbol to
another that it leads to, and is the same exactly if that one leads back. -/
theorem ncard_leadingTo_le (h : Walk g.calls.Links k u v) :
    (g.leadingTo u).ncard ≤ (g.leadingTo v).ncard ∧
      ((g.leadingTo u).ncard = (g.leadingTo v).ncard ↔ ∃ n, Walk g.calls.Links n v u) := by
  have hsubset := leadingTo_subset h
  have hfinite := leadingTo_finite g v
  refine ⟨Set.ncard_le_ncard hsubset hfinite, ?_⟩
  rw [← leadingTo_eq_iff h]
  refine ⟨fun hcount => ?_, fun hsame => by rw [hsame]⟩
  exact Set.eq_of_subset_of_ncard_le hsubset (Nat.le_of_eq hcount.symm) hfinite

end CallGraph

namespace Impact

variable {config : Config} {g : CallGraph} {ref : String}

/-- Without a limit the blast radius counts what leads to a symbol but for the symbol. -/
theorem blastRadius_add_one (hunlimited : config.maxDepth = none) (entryPoints : List String)
    (exported : InsertionMap String String) (hnonempty : ref ≠ "")
    (hknown : g.contains ref = true) :
    (reportOn config g entryPoints exported ref).blastRadius + 1 = (g.leadingTo ref).ncard := by
  have hradius : (reportOn config g entryPoints exported ref).blastRadius =
      (allCallers config.maxDepth g ref).length := by
    rw [reportOn_of_known config entryPoints exported hnonempty hknown]
    rfl
  rw [hradius, hunlimited, CallGraph.ncard_leadingTo]
  norm_cast

/-- The blast radius does not shrink from a symbol to another one that it leads to, and is
the same exactly if that one leads back. -/
theorem blastRadius_le_of_walk (hunlimited : config.maxDepth = none) (entryPoints : List String)
    (exported : InsertionMap String String) {u v : String} {k : Nat} (hu : u ≠ "") (hv : v ≠ "")
    (hknown : g.contains u = true) (hknown' : g.contains v = true)
    (hwalk : Walk g.calls.Links k u v) :
    (reportOn config g entryPoints exported u).blastRadius ≤
        (reportOn config g entryPoints exported v).blastRadius ∧
      ((reportOn config g entryPoints exported u).blastRadius =
          (reportOn config g entryPoints exported v).blastRadius ↔
        ∃ n, Walk g.calls.Links n v u) := by
  have hradius := blastRadius_add_one hunlimited entryPoints exported hu hknown
  have hradius' := blastRadius_add_one hunlimited entryPoints exported hv hknown'
  obtain ⟨hle, hsame⟩ := CallGraph.ncard_leadingTo_le hwalk
  refine ⟨by omega, ?_⟩
  rw [← hsame]
  omega

/-- Symbols that lead to each other have the same blast radius. -/
theorem blastRadius_eq_of_walks (hunlimited : config.maxDepth = none) (entryPoints : List String)
    (exported : InsertionMap String String) {u v : String} {m n : Nat} (hu : u ≠ "") (hv : v ≠ "")
    (hwalk : Walk g.calls.Links m u v) (hback : Walk g.calls.Links n v u) :
    (reportOn config g entryPoints exported u).blastRadius =
      (reportOn config g entryPoints exported v).blastRadius := by
  by_cases hself : u = v
  · rw [hself]
  · have hknown := CallGraph.contains_of_walk hself hwalk
    have hknown' := CallGraph.contains_of_walk (Ne.symm hself) hback
    exact (blastRadius_le_of_walk hunlimited entryPoints exported hu hv hknown hknown' hwalk).2.mpr
      ⟨n, hback⟩

/-! ## Main statement -/

/-- Without a limit the blast radius does not shrink from the source of a call to its
target, and is the same at both ends exactly if the call is marked as recursive.  So the
symbols on a cycle all have one blast radius. -/
theorem blastRadius_along_calls (config : Config) (hunlimited : config.maxDepth = none)
    (nodes : List Node) (edges : List Edge) (entryPoints : List String)
    (exported : InsertionMap String String) :
    let g := CallGraph.build nodes edges
    let radius := fun ref => (reportOn config g entryPoints exported ref).blastRadius
    (∀ e ∈ g.edges, e.source ≠ "" → e.target ≠ "" →
      radius e.source ≤ radius e.target ∧
        (radius e.source = radius e.target ↔ e.isRecursive = true)) ∧
    ∀ u v m n, u ≠ "" → v ≠ "" → Walk g.calls.Links m u v → Walk g.calls.Links n v u →
      radius u = radius v := by
  intro g radius
  refine ⟨fun e he hsource htarget => ?_, fun u v m n hu hv hwalk hback => ?_⟩
  · have hlink : g.calls.Links e.source e.target :=
      CallGraph.links_build_iff_mem_edges.mpr ⟨e, he, rfl, rfl⟩
    have hends := g.calls.ends_mem _ hlink
    rw [CallGraph.isRecursive_of_mem_edges_build he]
    exact blastRadius_le_of_walk hunlimited entryPoints exported hsource htarget
      (CallGraph.contains_of_mem_vertices hends.1) (CallGraph.contains_of_mem_vertices hends.2)
      (.cons hlink (.nil _))
  · exact blastRadius_eq_of_walks hunlimited entryPoints exported hu hv hwalk hback

/-- Three symbols on a cycle, one of which calls a symbol off the cycle. -/
theorem blastRadius_along_calls_cycle :
    let g := CallGraph.build []
      [⟨"a", "b", 1, false⟩, ⟨"b", "c", 1, false⟩, ⟨"c", "a", 1, false⟩, ⟨"c", "d", 1, false⟩]
    let radius := fun ref => (reportOn .default g [] ∅ ref).blastRadius
    (Config.default.maxDepth = none ∧ ⟨"c", "a", 1, true⟩ ∈ g.edges ∧
      ⟨"c", "d", 1, false⟩ ∈ g.edges ∧ "c" ≠ "" ∧ "a" ≠ "" ∧ "d" ≠ "" ∧
      Walk g.calls.Links 1 "a" "b" ∧ Walk g.calls.Links 2 "b" "a") ∧
    radius "c" = radius "a" ∧ radius "c" < radius "d" ∧ radius "a" = radius "b" := by
  intro g radius
  have hback : (⟨"c", "a", 1, true⟩ : Edge) ∈ g.edges := by decide +kernel
  have hout : (⟨"c", "d", 1, false⟩ : Edge) ∈ g.edges := by decide +kernel
  have hab : g.calls.Links "a" "b" := by decide +kernel
  have hbc : g.calls.Links "b" "c" := by decide +kernel
  have hca : g.calls.Links "c" "a" := by decide +kernel
  have hwalk : Walk g.calls.Links 1 "a" "b" := .cons hab (.nil "b")
  have hwalk' : Walk g.calls.Links 2 "b" "a" := .cons hbc (.cons hca (.nil "a"))
  obtain ⟨hcalls, hcycles⟩ := blastRadius_along_calls .default rfl [] _ [] ∅
  refine ⟨⟨rfl, hback, hout, by decide, by decide, by decide, hwalk, hwalk'⟩, ?_, ?_, ?_⟩
  · exact (hcalls _ hback (by decide) (by decide)).2.mpr rfl
  · obtain ⟨hle, hsame⟩ := hcalls _ hout (by decide) (by decide)
    refine lt_of_le_of_ne hle fun heq => ?_
    exact Bool.false_ne_true (hsame.mp heq)
  · exact hcycles "a" "b" 1 2 (by decide) (by decide) hwalk hwalk'

end Impact

end ApiDrift
