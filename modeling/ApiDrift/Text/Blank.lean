set_option autoImplicit false

/-!
# Blank characters, trimming and words

Type texts are compared up to the amount of blank space in them.  This module
fixes which characters are blank, how a text is trimmed at both ends, and how
it is cut into words.  Everything works on lists of characters, so that the
scanners above it are plain recursions.
-/

namespace ApiDrift.Text

/-! ## Blank characters -/

/-- Inclusive code point ranges of the blank characters: the space-like
controls, the line and paragraph separators, and every space separator. -/
def blankRanges : List (Nat × Nat) :=
  [(0x0009, 0x000D), (0x001C, 0x0020), (0x0085, 0x0085), (0x00A0, 0x00A0),
   (0x1680, 0x1680), (0x2000, 0x200A), (0x2028, 0x2029), (0x202F, 0x202F),
   (0x205F, 0x205F), (0x3000, 0x3000)]

/-- A character that separates words and is dropped at the ends of a text. -/
def isBlank (c : Char) : Bool :=
  blankRanges.any fun range => range.1 ≤ c.toNat && c.toNat ≤ range.2

example : (blankRanges.map fun range => range.2 + 1 - range.1).sum = 29 := by decide

/-! ## Trimming -/

/-- The text without its leading blanks. -/
def trimStart (cs : List Char) : List Char := cs.dropWhile isBlank

/-- The text without its trailing blanks. -/
def trimEnd (cs : List Char) : List Char := (cs.reverse.dropWhile isBlank).reverse

/-- The text without blanks at either end. -/
def trim (cs : List Char) : List Char := trimEnd (trimStart cs)

theorem length_trim_le (cs : List Char) : (trim cs).length ≤ cs.length := by
  have drop_le (l : List Char) : (l.dropWhile isBlank).length ≤ l.length :=
    (List.dropWhile_sublist isBlank).length_le
  have hEnd := drop_le (trimStart cs).reverse
  have hStart := drop_le cs
  simp only [trim, trimEnd, List.length_reverse] at *
  exact Nat.le_trans hEnd hStart

/-! ## Words -/

/-- The maximal runs of characters that are not blank. -/
def words (cs : List Char) : List (List Char) :=
  (cs.splitOnP isBlank).filter fun word => !word.isEmpty

/-- The words of a text with a single space between them. -/
def collapse (cs : List Char) : List Char := [' '].intercalate (words cs)

end ApiDrift.Text
