import ApiDrift.Text.Blank

set_option autoImplicit false

/-!
# Bracket depth and top-level parts

A type text is scanned once from left to right with a single depth counter.
All kinds of brackets share the counter, and a closing bracket without an open
one leaves it at zero, so every text has a depth at every place, however badly
its brackets match.  A separator cuts the text only where the depth is zero.
-/

namespace ApiDrift.TypeText

open ApiDrift.Text

/-! ## Depth -/

/-- An opening bracket of any kind. -/
def isOpener (c : Char) : Bool := c == '(' || c == '[' || c == '{' || c == '<'

/-- A closing bracket of any kind; the head of an arrow counts as one. -/
def isCloser (c : Char) : Bool := c == ')' || c == ']' || c == '}' || c == '>'

/-- The depth behind a character that is read at the given depth. -/
def depthAfter (depth : Nat) (c : Char) : Nat :=
  if isOpener c then depth + 1 else if isCloser c then depth - 1 else depth

/-! ## Cutting at a separator -/

/-- The pieces of a text between the separators that stand at depth zero.  The
depth counts the character under the cursor too, so a separator that is itself a
bracket is judged by the depth behind it.  Without a separator nothing is cut. -/
def pieces (separator : Option Char) : Nat → List Char → List (List Char)
  | _, [] => [[]]
  | depth, c :: cs =>
    if separator = some c ∧ depthAfter depth c = 0 then
      [] :: pieces separator (depthAfter depth c) cs
    else
      (pieces separator (depthAfter depth c) cs).modifyHead (c :: ·)

theorem pieces_ne_nil (separator : Option Char) (depth : Nat) (cs : List Char) :
    pieces separator depth cs ≠ [] := by
  induction cs generalizing depth with
  | nil => simp [pieces]
  | cons c cs ih =>
    rw [pieces]
    split
    · simp
    · simpa using ih _

theorem length_le_of_mem_pieces {separator : Option Char} {depth : Nat} {cs piece : List Char}
    (h : piece ∈ pieces separator depth cs) : piece.length ≤ cs.length := by
  induction cs generalizing depth piece with
  | nil => simp_all [pieces]
  | cons c cs ih =>
    rw [pieces] at h
    split at h
    · rcases List.mem_cons.mp h with rfl | h
      · simp
      · exact Nat.le_succ_of_le (ih h)
    · cases hp : pieces separator (depthAfter depth c) cs with
      | nil => exact absurd hp (pieces_ne_nil _ _ _)
      | cons first rest =>
        rw [hp, List.modifyHead_cons] at h
        rcases List.mem_cons.mp h with rfl | h
        · exact Nat.succ_le_succ (ih (hp ▸ List.mem_cons_self))
        · exact Nat.le_succ_of_le (ih (hp ▸ List.mem_cons_of_mem first h))

/-! ## Top-level parts -/

/-- The trimmed pieces of a text at depth zero, without the empty ones. -/
def topLevelParts (separator : Option Char) (cs : List Char) : List (List Char) :=
  ((pieces separator 0 cs).map trim).filter fun part => !part.isEmpty

theorem length_le_of_mem_topLevelParts {separator : Option Char} {cs part : List Char}
    (h : part ∈ topLevelParts separator cs) : part.length ≤ cs.length := by
  obtain ⟨piece, mem, rfl⟩ := List.mem_map.mp (List.mem_filter.mp h).1
  exact Nat.le_trans (length_trim_le piece) (length_le_of_mem_pieces mem)

/-- The character that a separator text stands for.  A separator of any other
length than one never meets a character of the text. -/
def separatorOfText (text : String) : Option Char :=
  match text.toList with
  | [c] => some c
  | _ => none

/-- The top-level parts of a text between the occurrences of a separator. -/
def splitTopLevel (text separator : String) : List String :=
  (topLevelParts (separatorOfText separator) text.toList).map String.ofList

example : splitTopLevel "Map<K, V>, A ,, B" "," = ["Map<K, V>", "A", "B"] := by decide +kernel

end ApiDrift.TypeText
