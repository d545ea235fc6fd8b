import ApiDrift.Failure
import ApiDrift.Text.Quoted

set_option autoImplicit false

/-!
# Vocabularies

A closed set of values is written with one fixed word for each value.  Reading a
word gives the value back, or reports the word and the vocabulary it is not in.
-/

namespace ApiDrift

/-- A word that stands for no value of a vocabulary. -/
structure UnknownWord where
  title : String
  text : String
  deriving DecidableEq, Repr, Inhabited

/-- How an unknown word is reported. -/
def UnknownWord.failure (e : UnknownWord) : Failure :=
  ⟨.value, Text.quote e.text ++ " is not a valid " ++ e.title⟩

/-- The values of a type with the word for each of them. -/
structure Vocabulary (α : Type) where
  title : String
  values : List α
  word : α → String

namespace Vocabulary

variable {α : Type}

/-- The value that a word stands for. -/
def read (v : Vocabulary α) (text : String) : Except UnknownWord α :=
  match v.values.find? fun a => v.word a == text with
  | some a => .ok a
  | none => .error ⟨v.title, text⟩

end Vocabulary

end ApiDrift
