import ScriptSandbox.Text.Case
import ScriptSandbox.Text.Class

/-!
# What a regular expression asks for

A pattern is read into a `Node`. Characters are code points in a pattern that treats its subject as
Unicode text, and 16-bit units in any other; both are held as numbers.
-/

namespace ScriptSandbox.Regex

/-- The flags of a regular expression. -/
structure Flags where
  hasIndices : Bool := false
  global : Bool := false
  ignoreCase : Bool := false
  multiline : Bool := false
  dotAll : Bool := false
  unicode : Bool := false
  sticky : Bool := false
  deriving BEq, Inhabited, Repr

/-- Adds a flag by its letter; no flag may be given twice. -/
def Flags.add (f : Flags) (c : Char) : Option Flags :=
  match c with
  | 'd' => if f.hasIndices then none else some { f with hasIndices := true }
  | 'g' => if f.global then none else some { f with global := true }
  | 'i' => if f.ignoreCase then none else some { f with ignoreCase := true }
  | 'm' => if f.multiline then none else some { f with multiline := true }
  | 's' => if f.dotAll then none else some { f with dotAll := true }
  | 'u' => if f.unicode then none else some { f with unicode := true }
  | 'y' => if f.sticky then none else some { f with sticky := true }
  | _ => none

def Flags.read (s : String) : Option Flags := s.toList.foldlM Flags.add {}

/-! ## Sets of characters -/

/-- A set of characters: those in one of the ranges, or all others. -/
structure CharSet where
  ranges : List (Nat × Nat)
  negated : Bool := false
  deriving Inhabited

def lastCodePoint : Nat := 0x10FFFF

/-- The ranges between ranges, which are given in ascending order. -/
def complement (ranges : List (Nat × Nat)) : List (Nat × Nat) :=
  let rec go (from_ : Nat) : List (Nat × Nat) → List (Nat × Nat)
    | [] => if from_ ≤ lastCodePoint then [(from_, lastCodePoint)] else []
    | (lo, hi) :: rest =>
      let more := go (max from_ (hi + 1)) rest
      if from_ < lo then (from_, lo - 1) :: more else more
  go 0 ranges

def digits : List (Nat × Nat) := [(0x30, 0x39)]

/-- Letters, digits and the underscore. -/
def wordChars : List (Nat × Nat) := [(0x30, 0x39), (0x41, 0x5A), (0x5F, 0x5F), (0x61, 0x7A)]

def blanks : List (Nat × Nat) :=
  [(9, 13), (32, 32), (0xA0, 0xA0), (0x1680, 0x1680), (0x2000, 0x200A), (0x2028, 0x2029),
    (0x202F, 0x202F), (0x205F, 0x205F), (0x3000, 0x3000), (0xFEFF, 0xFEFF)]

def endsLine (n : Nat) : Bool := n == 10 || n == 13 || n == 0x2028 || n == 0x2029

def isWordChar (n : Nat) : Bool := Text.inRanges wordChars n

/-! ## Case -/

/-- A character in upper case, if that is a single one. -/
def upperOf (n : Nat) : Nat :=
  if n < 128 then (if 97 ≤ n && n ≤ 122 then n - 32 else n)
  else match Text.changeCase Text.upperRuns Text.upperLong n with
    | [m] => m
    | _ => n

/-- A character in lower case, if that is a single one. -/
def lowerOf (n : Nat) : Nat :=
  if n < 128 then (if 65 ≤ n && n ≤ 90 then n + 32 else n)
  else match Text.changeCase Text.lowerRuns Text.lowerLong n with
    | [m] => m
    | _ => n

/-- What characters are compared by when case does not matter. Outside Unicode text, no other
character is taken for one of ASCII. -/
def folded (unicode : Bool) (n : Nat) : Nat :=
  if unicode then lowerOf (upperOf n)
  else
    let m := upperOf n
    if 128 ≤ n && m < 128 then n else m

def Flags.same (f : Flags) (a b : Nat) : Bool :=
  a == b || (f.ignoreCase && folded f.unicode a == folded f.unicode b)

def Flags.holds (f : Flags) (s : CharSet) (n : Nat) : Bool :=
  let direct := Text.inRanges s.ranges n
  let found :=
    direct || (f.ignoreCase &&
      [lowerOf n, upperOf n, lowerOf (upperOf n)].any fun m =>
        folded f.unicode m == folded f.unicode n && Text.inRanges s.ranges m)
  found != s.negated

/-! ## Patterns -/

/-- What is asked of a single character. -/
inductive Test where
  | char (n : Nat)
  /-- The dot: any character but an end of a line, or any at all, by the flags. -/
  | any
  | set (s : CharSet)
  deriving Inhabited

/-- A pattern. -/
inductive Node where
  | empty
  | one (t : Test)
  | lineStart
  | lineEnd
  /-- The edge of a word, or any other place. -/
  | wordEdge (wanted : Bool)
  | seq (a b : Node)
  | either (a b : Node)
  /-- A group whose text is kept under a number. -/
  | group (index : Nat) (body : Node)
  /-- As many rounds as allowed, or as few; each begins with the groups in it forgotten. -/
  | repeated (body : Node) (least : Nat) (most : Option Nat) (greedy : Bool)
      (firstGroup lastGroup : Nat)
  /-- The text of a group once more. -/
  | again (index : Nat)
  /-- What stands ahead, or behind, without being passed. -/
  | look (ahead negated : Bool) (body : Node)
  deriving Inhabited

end ScriptSandbox.Regex
