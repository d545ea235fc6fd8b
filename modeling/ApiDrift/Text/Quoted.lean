import ApiDrift.Text.Unprintable

set_option autoImplicit false

/-!
# Quoted text

Messages show the texts they speak of in quotes, with one spelling for each
text.  The apostrophe is the quotation mark unless the text holds one and holds
no double quote; then the double quote is.  The mark and the backslash are
escaped, and so is whatever would not show.
-/

namespace ApiDrift.Text

/-- The quotation mark of most texts. -/
def apostrophe : Char := '\x27'

/-- The quotation mark of a text that holds an apostrophe and no double quote. -/
def doubleQuote : Char := '\x22'

/-- The character that opens an escape. -/
def backslash : Char := '\x5c'

/-- The mark that encloses a text. -/
def quotationMark (cs : List Char) : Char :=
  if apostrophe ∈ cs ∧ doubleQuote ∉ cs then doubleQuote else apostrophe

/-- Lowercase hexadecimal digits of a number, padded with zeros to a width. -/
def hexDigits (width n : Nat) : List Char := (Nat.toDigits 16 n).leftpad width '0'

/-- The code point of a character in the shortest of the three escapes that
holds it: two, four or eight hexadecimal digits. -/
def codePointEscape (c : Char) : List Char :=
  let n := c.toNat
  if n < 0x100 then backslash :: 'x' :: hexDigits 2 n
  else if n < 0x10000 then backslash :: 'u' :: hexDigits 4 n
  else backslash :: 'U' :: hexDigits 8 n

/-- How one character stands between quotation marks. -/
def escape (mark c : Char) : List Char :=
  if c = mark ∨ c = backslash then [backslash, c]
  else if c = '\n' then [backslash, 'n']
  else if c = '\r' then [backslash, 'r']
  else if c = '\t' then [backslash, 't']
  else if isUnprintable c then codePointEscape c
  else [c]

/-- The quoted form of a text. -/
def quoteChars (cs : List Char) : List Char :=
  let mark := quotationMark cs
  mark :: cs.flatMap (escape mark) ++ [mark]

/-- The quoted form of a string. -/
def quote (s : String) : String := String.ofList (quoteChars s.toList)

example : quote "input" = "'input'" := by decide +kernel

example : quoteChars [apostrophe] = [doubleQuote, apostrophe, doubleQuote] := by decide +kernel

example : quoteChars [apostrophe, doubleQuote] =
    [apostrophe, backslash, apostrophe, doubleQuote, apostrophe] := by decide +kernel

example : escape apostrophe (Char.ofNat 0xFEFF) = [backslash, 'u', 'f', 'e', 'f', 'f'] := by
  decide +kernel

end ApiDrift.Text
