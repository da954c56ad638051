import ScriptSandbox.Text.Ranges

/-!
# Character classes

The classes that the readers of this library test for, over the whole of Unicode:

- `isBlank`, the property White_Space, is what trimming removes and what stands between the
  words of a statement;
- `isWord` is the class of a word in a text search: letters, marks, decimal digits, connectors
  and the two joiners;
- `isAlphanumeric` is a letter or any kind of number.

Every class answers an ASCII character without looking at a table.
-/

namespace ScriptSandbox.Text

/-- Whether a code point lies in one of the ranges. -/
def inRanges (ranges : List (Nat × Nat)) (n : Nat) : Bool :=
  ranges.any fun r => r.1 ≤ n && n ≤ r.2

/-- A letter of the English alphabet. -/
def isAsciiLetter (c : Char) : Bool :=
  ('a' ≤ c && c ≤ 'z') || ('A' ≤ c && c ≤ 'Z')

/-- A digit from 0 to 9. -/
def isAsciiDigit (c : Char) : Bool := '0' ≤ c && c ≤ '9'

/-- White space in the sense of Unicode. -/
def isBlank (c : Char) : Bool :=
  if c.toNat < 128 then c == ' ' || (9 ≤ c.toNat && c.toNat ≤ 13)
  else inRanges Ranges.blank c.toNat

/-- A letter in the sense of Unicode. -/
def isAlphabetic (c : Char) : Bool :=
  if c.toNat < 128 then isAsciiLetter c else inRanges Ranges.alphabetic c.toNat

def isMark (c : Char) : Bool :=
  if c.toNat < 128 then false else inRanges Ranges.mark c.toNat

def isDecimalDigit (c : Char) : Bool :=
  if c.toNat < 128 then isAsciiDigit c else inRanges Ranges.decimalDigit c.toNat

/-- A number sign of any kind: digits, letter-like numerals, fractions. -/
def isNumeric (c : Char) : Bool :=
  isDecimalDigit c || (128 ≤ c.toNat && inRanges Ranges.otherNumber c.toNat)

/-- A letter or a number sign. -/
def isAlphanumeric (c : Char) : Bool := isAlphabetic c || isNumeric c

/-- A character that can be part of a word. -/
def isWord (c : Char) : Bool :=
  if c.toNat < 128 then isAsciiLetter c || isAsciiDigit c || c == '_'
  else isAlphabetic c || isMark c || isDecimalDigit c || inRanges Ranges.connector c.toNat
    || c.toNat == 0x200C || c.toNat == 0x200D

/-- Characters that are no letters but may begin a name all the same. -/
def oddNameStarts : List Nat := [0x1885, 0x1886, 0x2118, 0x212E, 0x309B, 0x309C]

/-- Characters that are neither letters nor digits nor marks but may stand inside a name. -/
def oddNameParts : List Nat :=
  [0xB7, 0x387, 0x1369, 0x136A, 0x136B, 0x136C, 0x136D, 0x136E, 0x136F, 0x1370, 0x1371, 0x19DA]

/-- Whether a name in a program may begin with a character. -/
def beginsName (c : Char) : Bool :=
  isAlphabetic c || c == '_' || c == '$' || oddNameStarts.contains c.toNat

/-- Whether a name in a program may go on with a character. -/
def continuesName (c : Char) : Bool :=
  isWord c || c == '$' || oddNameStarts.contains c.toNat || oddNameParts.contains c.toNat

/-- A text without the blanks at its start. -/
def trimStart (s : List Char) : List Char := s.dropWhile isBlank

/-- A text without the blanks at its end. -/
def trimEnd (s : List Char) : List Char := (s.reverse.dropWhile isBlank).reverse

/-- A text without the blanks at both ends. -/
def trim (s : List Char) : List Char := trimEnd (trimStart s)

def trimEndString (s : String) : String := String.ofList (trimEnd s.toList)

end ScriptSandbox.Text
