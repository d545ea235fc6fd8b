import ApiDrift.Keyed

set_option autoImplicit false

/-!
# Maps in insertion order

A finite map that keeps its keys in the order in which they were first put in.
Putting a key in again changes its value and not its place.  The keys are
distinct by type, so the entries, the keys and the values are all lists of one
length and one order.
-/

namespace ApiDrift

/-- A finite map whose keys stand in the order of their first insertion. -/
structure InsertionMap (α β : Type) where
  entries : List (α × β)
  keys_nodup : (entries.map Prod.fst).Nodup
  deriving Repr

namespace InsertionMap

variable {α β γ : Type}

instance : EmptyCollection (InsertionMap α β) := ⟨⟨[], List.nodup_nil⟩⟩

instance : Inhabited (InsertionMap α β) := ⟨∅⟩

/-- The keys in order. -/
def keys (m : InsertionMap α β) : List α := m.entries.map Prod.fst

/-- The values in the order of their keys. -/
def values (m : InsertionMap α β) : List β := m.entries.map Prod.snd

/-- The number of entries. -/
def size (m : InsertionMap α β) : Nat := m.entries.length

/-- The map with every value changed by a function of its key and itself. -/
def mapValues (f : α → β → γ) (m : InsertionMap α β) : InsertionMap α γ where
  entries := m.entries.map fun e => (e.1, f e.1 e.2)
  keys_nodup := by simpa [Function.comp_def] using m.keys_nodup

@[simp] theorem keys_empty : (∅ : InsertionMap α β).keys = [] := rfl

@[simp] theorem keys_mapValues (f : α → β → γ) (m : InsertionMap α β) :
    (m.mapValues f).keys = m.keys := by
  simp [mapValues, keys, Function.comp_def]

/-- Maps of the same entries in the same order are the same. -/
theorem ext_entries {m m' : InsertionMap α β} (h : m.entries = m'.entries) : m = m' := by
  cases m
  cases m'
  cases h
  rfl

/-- Values that a change leaves alone leave the map alone. -/
theorem mapValues_eq_self {f : α → β → β} {m : InsertionMap α β}
    (h : ∀ entry ∈ m.entries, f entry.1 entry.2 = entry.2) : m.mapValues f = m := by
  have same : m.entries.map (fun entry => (entry.1, f entry.1 entry.2)) = m.entries.map id :=
    List.map_congr_left fun entry mem => by rw [h entry mem, id]
  exact ext_entries (same.trans (List.map_id _))

variable [DecidableEq α]

/-! ## Looking up -/

/-- The value of a key. -/
def get? (m : InsertionMap α β) (k : α) : Option β :=
  (m.entries.find? fun e => e.1 = k).map Prod.snd

/-- Whether a key is in the map. -/
def contains (m : InsertionMap α β) (k : α) : Bool := m.keys.contains k

@[simp] theorem contains_iff {m : InsertionMap α β} {k : α} : m.contains k = true ↔ k ∈ m.keys := by
  simp [contains]

theorem get?_eq_none_iff {m : InsertionMap α β} {k : α} : m.get? k = none ↔ k ∉ m.keys := by
  rw [get?, Option.map_eq_none_iff]
  exact Keyed.find?_eq_none_iff

theorem get?_eq_some_iff {m : InsertionMap α β} {k : α} {v : β} :
    m.get? k = some v ↔ (k, v) ∈ m.entries := by
  simp only [get?, Option.map_eq_some_iff, Keyed.find?_eq_some_iff m.keys_nodup]
  constructor
  · intro h
    obtain ⟨e, ⟨mem, rfl⟩, rfl⟩ := h
    exact mem
  · exact fun mem => ⟨(k, v), ⟨mem, rfl⟩, rfl⟩

theorem get?_mapValues (f : α → β → γ) (m : InsertionMap α β) (k : α) :
    (m.mapValues f).get? k = (m.get? k).map (f k) := by
  obtain ⟨entries, nodup⟩ := m
  simp only [get?, mapValues]
  clear nodup
  induction entries with
  | nil => rfl
  | cons e entries ih =>
    by_cases h : e.1 = k
    · simp [h]
    · simpa [h] using ih

/-- As many keys lead to a value of some kind as there are such values. -/
theorem countP_keys (m : InsertionMap α β) (p : β → Bool) :
    (m.keys.countP fun k => (m.get? k).any p) = m.values.countP p := by
  rw [keys, values, List.countP_map, List.countP_map]
  refine List.countP_congr fun e he => ?_
  have hvalue : m.get? e.1 = some e.2 := get?_eq_some_iff.mpr he
  simp [hvalue]

/-! ## Putting in -/

/-- The entries with the value of one key changed. -/
def update (entries : List (α × β)) (k : α) (f : β → β) : List (α × β) :=
  entries.map fun e => if e.1 = k then (e.1, f e.2) else e

theorem map_fst_update (entries : List (α × β)) (k : α) (f : β → β) :
    (update entries k f).map Prod.fst = entries.map Prod.fst := by
  rw [update, List.map_map]
  congr 1
  funext e
  simp only [Function.comp_apply]
  split <;> rfl

theorem find?_update (entries : List (α × β)) (k a : α) (f : β → β) :
    ((update entries k f).find? fun e => e.1 = a).map Prod.snd =
      ((entries.find? fun e => e.1 = a).map Prod.snd).map fun v => if a = k then f v else v := by
  induction entries with
  | nil => rfl
  | cons e entries ih =>
    simp only [update, List.map_cons, List.find?_cons] at *
    by_cases hk : e.1 = k <;> by_cases ha : e.1 = a <;> simp_all

/-- Gives a key the value that a function makes of its old one.  A new key goes
to the end. -/
def alter (m : InsertionMap α β) (k : α) (f : Option β → β) : InsertionMap α β :=
  if h : k ∈ m.keys then
    { entries := update m.entries k fun v => f (some v)
      keys_nodup := by
        rw [map_fst_update]
        exact m.keys_nodup }
  else
    { entries := m.entries ++ [(k, f none)]
      keys_nodup := by
        rw [List.map_append, List.nodup_append]
        refine ⟨m.keys_nodup, by simp, fun a ha b hb => ?_⟩
        rintro rfl
        simp only [List.map_cons, List.map_nil, List.mem_singleton] at hb
        exact h (hb ▸ ha) }

/-- Gives a key a value, whether or not it has one. -/
def insert (m : InsertionMap α β) (k : α) (v : β) : InsertionMap α β := m.alter k fun _ => v

/-- Gives a key a value unless it has one: the first claim to a key wins. -/
def claim (m : InsertionMap α β) (k : α) (v : β) : InsertionMap α β := m.alter k (·.getD v)

theorem keys_alter (m : InsertionMap α β) (k : α) (f : Option β → β) :
    (m.alter k f).keys = if k ∈ m.keys then m.keys else m.keys ++ [k] := by
  unfold alter
  split
  · simp [keys, map_fst_update]
  · simp [keys]

theorem mem_keys_alter {m : InsertionMap α β} {k a : α} {f : Option β → β} :
    a ∈ (m.alter k f).keys ↔ a ∈ m.keys ∨ a = k := by
  rw [keys_alter]
  split
  · rename_i h
    exact ⟨.inl, fun | .inl h => h | .inr rfl => h⟩
  · simp

theorem get?_alter (m : InsertionMap α β) (k a : α) (f : Option β → β) :
    (m.alter k f).get? a = if a = k then some (f (m.get? k)) else m.get? a := by
  unfold alter
  split
  · rename_i h
    rw [get?, find?_update, ← get?]
    by_cases ha : a = k
    · subst ha
      cases hv : m.get? a with
      | none => exact absurd h (get?_eq_none_iff.mp hv)
      | some v => simp
    · simp [ha]
  · rename_i h
    have hnone := get?_eq_none_iff.mpr h
    rw [hnone]
    simp only [get?, List.find?_append, List.find?_singleton]
    by_cases ha : a = k
    · subst ha
      rw [get?, Option.map_eq_none_iff] at hnone
      simp [hnone]
    · have ha' : ¬ k = a := fun h => ha h.symm
      simp [ha, ha']

@[simp] theorem get?_empty (k : α) : (∅ : InsertionMap α β).get? k = none := rfl

theorem keys_insert (m : InsertionMap α β) (k : α) (v : β) :
    (m.insert k v).keys = if k ∈ m.keys then m.keys else m.keys ++ [k] :=
  m.keys_alter k _

theorem keys_claim (m : InsertionMap α β) (k : α) (v : β) :
    (m.claim k v).keys = if k ∈ m.keys then m.keys else m.keys ++ [k] :=
  m.keys_alter k _

theorem get?_insert (m : InsertionMap α β) (k a : α) (v : β) :
    (m.insert k v).get? a = if a = k then some v else m.get? a :=
  m.get?_alter k a _

theorem get?_claim (m : InsertionMap α β) (k a : α) (v : β) :
    (m.claim k v).get? a = if a = k then some ((m.get? k).getD v) else m.get? a :=
  m.get?_alter k a _

theorem entries_alter_of_mem {m : InsertionMap α β} {k : α} {f : Option β → β} (h : k ∈ m.keys) :
    (m.alter k f).entries = update m.entries k fun v => f (some v) := by
  rw [alter, dif_pos h]

theorem entries_alter_of_not_mem {m : InsertionMap α β} {k : α} {f : Option β → β}
    (h : k ∉ m.keys) : (m.alter k f).entries = m.entries ++ [(k, f none)] := by
  rw [alter, dif_neg h]

/-- Only what a function makes of the old value matters. -/
theorem alter_congr {m : InsertionMap α β} {k : α} {f f' : Option β → β}
    (h : f (m.get? k) = f' (m.get? k)) : m.alter k f = m.alter k f' := by
  refine ext_entries ?_
  by_cases mem : k ∈ m.keys
  · rw [entries_alter_of_mem mem, entries_alter_of_mem mem]
    refine List.map_congr_left fun e he => ?_
    split
    · rename_i same
      subst same
      have value : m.get? e.1 = some e.2 := get?_eq_some_iff.mpr he
      rw [value] at h
      exact congrArg (Prod.mk e.1) h
    · rfl
  · rw [get?_eq_none_iff.mpr mem] at h
    rw [entries_alter_of_not_mem mem, entries_alter_of_not_mem mem, h]

/-- Changing all values can be put before changing one, if the change of the one
follows. -/
theorem mapValues_alter (h : α → β → γ) {m : InsertionMap α β} {k : α} {f : Option β → β}
    {f' : Option γ → γ} (hf : ∀ old, h k (f old) = f' (old.map (h k))) :
    (m.alter k f).mapValues h = (m.mapValues h).alter k f' := by
  apply ext_entries
  by_cases hk : k ∈ m.keys
  · rw [entries_alter_of_mem (by simpa using hk)]
    simp only [mapValues, entries_alter_of_mem hk, update, List.map_map]
    refine List.map_congr_left fun e _ => ?_
    by_cases he : e.1 = k
    · subst he
      simp [hf]
    · simp [he]
  · rw [entries_alter_of_not_mem (by simpa using hk)]
    simp [mapValues, entries_alter_of_not_mem hk, hf]

/-! ## Building -/

/-- The map of a list of pairs; the last value of a repeated key wins. -/
def ofList (entries : List (α × β)) : InsertionMap α β :=
  entries.foldl (fun m e => m.insert e.1 e.2) ∅

/-- The map of a list of pairs; the first value of a repeated key wins. -/
def ofClaims (entries : List (α × β)) : InsertionMap α β :=
  entries.foldl (fun m e => m.claim e.1 e.2) ∅

/-- Of the values put in under a key the last one stays. -/
theorem get?_foldl_insert (entries : List (α × β)) (m : InsertionMap α β) (k : α) :
    (entries.foldl (fun m e => m.insert e.1 e.2) m).get? k =
      ((entries.reverse.find? fun e => e.1 = k).map Prod.snd).or (m.get? k) := by
  induction entries generalizing m with
  | nil => rfl
  | cons e entries ih =>
    rw [List.foldl_cons, ih, get?_insert, List.reverse_cons, List.find?_append, List.find?_singleton]
    cases entries.reverse.find? fun e => e.1 = k with
    | some found => rfl
    | none =>
      by_cases he : e.1 = k
      · simp [he]
      · simp [he, Ne.symm he]

/-- The first claim to a key that has no value yet gives it its value. -/
theorem get?_foldl_claim (entries : List (α × β)) (m : InsertionMap α β) (k : α) :
    (entries.foldl (fun m e => m.claim e.1 e.2) m).get? k =
      (m.get? k).or ((entries.find? fun e => e.1 = k).map Prod.snd) := by
  induction entries generalizing m with
  | nil => simp
  | cons e entries ih =>
    rw [List.foldl_cons, ih, get?_claim, List.find?_cons]
    by_cases he : e.1 = k
    · subst he
      cases m.get? e.1 <;> simp
    · simp [he, Ne.symm he]

theorem get?_ofList (entries : List (α × β)) (k : α) :
    (ofList entries).get? k = (entries.reverse.find? fun e => e.1 = k).map Prod.snd := by
  rw [ofList, get?_foldl_insert, get?_empty, Option.or_none]

theorem get?_ofClaims (entries : List (α × β)) (k : α) :
    (ofClaims entries).get? k = (entries.find? fun e => e.1 = k).map Prod.snd := by
  rw [ofClaims, get?_foldl_claim, get?_empty, Option.none_or]

theorem mem_of_mem_entries_ofClaims {entries : List (α × β)} {e : α × β}
    (h : e ∈ (ofClaims entries).entries) : e ∈ entries := by
  have hget := get?_eq_some_iff.mpr h
  rw [get?_ofClaims, Option.map_eq_some_iff] at hget
  obtain ⟨found, hfound, hvalue⟩ := hget
  have hkey : found.1 = e.1 := by simpa using List.find?_some hfound
  have hsame : found = e := Prod.ext hkey hvalue
  exact hsame ▸ List.mem_of_find?_eq_some hfound

/-! ## Building from new keys -/

/-- New keys go to the end one after the other. -/
theorem entries_foldl_alter_of_new {ι : Type} (key : ι → α) (value : ι → Option β → β)
    {xs : List ι} {m : InsertionMap α β} (new : (m.keys ++ xs.map key).Nodup) :
    (xs.foldl (fun m x => m.alter (key x) (value x)) m).entries =
      m.entries ++ xs.map fun x => (key x, value x none) := by
  induction xs generalizing m with
  | nil => exact (List.append_nil _).symm
  | cons x xs ih =>
    have fresh : key x ∉ m.keys := by
      intro mem
      exact (List.nodup_append.mp new).2.2 _ mem _ (by simp) rfl
    have keys : (m.alter (key x) (value x)).keys = m.keys ++ [key x] := by
      rw [keys_alter, if_neg fresh]
    rw [List.foldl_cons, ih (by simpa [keys] using new), entries_alter_of_not_mem fresh,
      List.append_assoc]
    rfl

/-- A map is made of its own entries. -/
theorem ofList_entries (m : InsertionMap α β) : ofList m.entries = m := by
  refine ext_entries ?_
  have run := entries_foldl_alter_of_new Prod.fst (fun e _ => e.2) (m := ∅) m.keys_nodup
  exact run.trans (List.map_id _)

/-- A claim to a key that has a value changes nothing. -/
theorem claim_of_mem {m : InsertionMap α β} {k : α} (h : k ∈ m.keys) (v : β) :
    m.claim k v = m := by
  refine ext_entries ?_
  rw [claim, entries_alter_of_mem h, update]
  simp

/-- A claim to a key that has no value puts it in. -/
theorem claim_of_not_mem {m : InsertionMap α β} {k : α} (h : k ∉ m.keys) (v : β) :
    m.claim k v = m.insert k v := by
  unfold claim insert
  apply alter_congr
  rw [get?_eq_none_iff.mpr h, Option.getD_none]

theorem foldl_claim_of_mem {ks : List α} {m : InsertionMap α β} (h : ∀ k ∈ ks, k ∈ m.keys)
    (value : α → β) : ks.foldl (fun m k => m.claim k (value k)) m = m := by
  induction ks with
  | nil => rfl
  | cons k ks ih =>
    rw [List.foldl_cons, claim_of_mem (h k List.mem_cons_self)]
    exact ih fun k' mem => h k' (List.mem_cons_of_mem k mem)

/-- Claims that come to a map add behind it what they make up on their own, as far as
the keys are new. -/
theorem entries_foldl_claim (entries : List (α × β)) (m : InsertionMap α β) :
    (entries.foldl (fun m e => m.claim e.1 e.2) m).entries =
      m.entries ++ (ofClaims entries).entries.filter fun e => e.1 ∉ m.keys := by
  induction entries generalizing m with
  | nil => exact (List.append_nil _).symm
  | cons e entries ih =>
    have halone : (ofClaims (e :: entries)).entries =
        e :: (ofClaims entries).entries.filter fun e' => e'.1 ∉ [e.1] := by
      rw [ofClaims, List.foldl_cons, ih]
      rfl
    rw [List.foldl_cons, ih, halone, List.filter_cons, List.filter_filter]
    by_cases hmem : e.1 ∈ m.keys
    · -- the first claim changes nothing, and it drops out on the right
      rw [claim_of_mem hmem, if_neg (by simpa using hmem)]
      refine congrArg (m.entries ++ ·) (List.filter_congr fun e' _ => ?_)
      by_cases hsame : e'.1 = e.1 <;> simp [hsame, hmem]
    · rw [claim, entries_alter_of_not_mem hmem, keys_alter, if_neg hmem,
        if_pos (decide_eq_true hmem), List.append_assoc]
      refine congrArg (fun rest => m.entries ++ e :: rest) (List.filter_congr fun e' _ => ?_)
      simp [not_or]

end InsertionMap

end ApiDrift
