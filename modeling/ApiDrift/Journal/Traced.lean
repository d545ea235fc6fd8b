import ApiDrift.Journal.Event

set_option autoImplicit false

/-!
# Results with records

An analysis logs records on the way to its result.  Both are kept together here, so
that what is logged follows the steps of the analysis: the records of one step come
before those of the next, and a step may depend on the results of earlier ones but
not on what they logged.
-/

namespace ApiDrift

/-- A result with the records that are logged on the way to it. -/
structure Traced (α : Type) where
  result : α
  records : List Journal.Record
  deriving Repr

namespace Traced

variable {α β : Type}

instance : Monad Traced where
  pure a := ⟨a, []⟩
  bind x f := ⟨(f x.result).result, x.records ++ (f x.result).records⟩

/-- Logs the record of an event. -/
def log (e : Event) : Traced Unit := ⟨(), [e.record]⟩

/-- Takes a step for each element of a list, in order. -/
def each (f : α → Traced β) : List α → Traced (List β)
  | [] => return []
  | a :: as => do
    let first ← f a
    let rest ← each f as
    return first :: rest

/-! ## Results and records of steps -/

@[simp] theorem result_pure (a : α) : (pure a : Traced α).result = a := rfl

@[simp] theorem records_pure (a : α) : (pure a : Traced α).records = [] := rfl

@[simp] theorem result_bind (x : Traced α) (f : α → Traced β) :
    (x >>= f).result = (f x.result).result :=
  rfl

@[simp] theorem records_bind (x : Traced α) (f : α → Traced β) :
    (x >>= f).records = x.records ++ (f x.result).records :=
  rfl

@[simp] theorem result_log (e : Event) : (log e).result = () := rfl

@[simp] theorem records_log (e : Event) : (log e).records = [e.record] := rfl

@[simp] theorem result_each (f : α → Traced β) (l : List α) :
    (each f l).result = l.map fun a => (f a).result := by
  induction l with
  | nil => rfl
  | cons a l ih => simp [each, ih]

@[simp] theorem records_each (f : α → Traced β) (l : List α) :
    (each f l).records = l.flatMap fun a => (f a).records := by
  induction l with
  | nil => rfl
  | cons a l ih => simp [each, ih]

end Traced

end ApiDrift
