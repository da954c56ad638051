import ScriptSandbox.Regex.Property
import ScriptSandbox.Regex.Tree

/-!
# Reading patterns

A pattern is read from left to right by recursive descent. What is wrong with it is told in a
message. A pattern that does not treat its subject as Unicode text is read leniently: a brace that
begins no count, a backslash before a character that needs none and a number that is no group's
stand for characters.
-/

namespace ScriptSandbox.Regex

/-- A pattern to be read. -/
structure Source where
  chars : Array Nat
  flags : Flags
  /-- The names of all its groups in order, where they have names. -/
  groups : List (Option String)

/-- How far a pattern has been read. -/
structure Progress where
  next : Nat := 0
  /-- The names of the groups so far, the last one first. -/
  groups : List (Option String) := []

/-- A computation that reads a pattern. -/
abbrev Parse (α : Type) : Type := ReaderT Source (EStateM String Progress) α

namespace Parse

/-- The character at a distance. -/
def peek (k : Nat) : Parse (Option Nat) := do return (← read).chars[(← get).next + k]?

/-- Whether a character stands at a distance. -/
def sees (k : Nat) (c : Char) : Parse Bool := do return (← peek k) == some c.toNat

def seesDigit (k : Nat) : Parse Bool := do
  match ← peek k with
  | some n => return 48 ≤ n && n ≤ 57
  | none => return false

/-- Passes some characters. -/
def skip (k : Nat) : Parse Unit := modify fun s => { s with next := s.next + k }

/-- Passes a character, if it is ahead. -/
def take (c : Char) : Parse Bool := do
  if ← sees 0 c then
    skip 1
    return true
  else return false

/-- Passes a character, which has to be ahead. -/
def expect (c : Char) : Parse Unit := do
  if !(← take c) then throw ("expecting '" ++ String.singleton c ++ "'")

def unicode : Parse Bool := do return (← read).flags.unicode

/-- Runs a reading that may come to nothing; then nothing has been read. -/
def tentative {α : Type} (p : Parse (Option α)) : Parse (Option α) := do
  let s ← get
  match ← p with
  | some a => return some a
  | none =>
    set s
    return none

/-- A bound for how often something can be repeated in the pattern. -/
def bound : Parse Nat := do return (← read).chars.size + 1

/-- Repeats a reading until it tells that it is done. -/
def repeatParse {α : Type} (step : α → Parse (α × Bool)) : (fuel : Nat) → α → Parse α
  | 0, a => return a
  | fuel + 1, a => do
    let (a, more) ← step a
    if more then repeatParse step fuel a else return a

end Parse

open Parse

/-! ## Names and numbers -/

/-- The value of a digit, if it is one of a base up to sixteen. -/
def digitOf? (base n : Nat) : Option Nat :=
  let d :=
    if 48 ≤ n && n ≤ 57 then n - 48
    else if 97 ≤ n && n ≤ 102 then n - 87
    else if 65 ≤ n && n ≤ 70 then n - 55
    else 99
  if d < base then some d else none

/-- A number in digits, which may be as high as a count can be. -/
def readNumber : Parse Nat := do
  repeatParse (fun v => do
    match (← peek 0).bind (digitOf? 10) with
    | some d =>
      skip 1
      return (min (v * 10 + d) 2147483647, true)
    | none => return (v, false)) (← bound) 0

/-- A number of exactly so many hexadecimal digits. -/
def readHex? (count : Nat) : Parse (Option Nat) :=
  (List.range count).foldlM (fun v _ => do
    match v, (← peek 0).bind (digitOf? 16) with
    | some v, some d =>
      skip 1
      return some (v * 16 + d)
    | _, _ => return none) (some 0)

/-- A code point in hexadecimal digits up to the brace that ends it. -/
def readBracedHex? : Parse (Option Nat) := do
  let (v, _) ← repeatParse (fun (v, k) => do
    match v, ← peek 0 with
    | some x, some n =>
      match digitOf? 16 n with
      | some d =>
        skip 1
        if x * 16 + d > lastCodePoint then return ((none, k), false)
        return ((some (x * 16 + d), k + 1), true)
      | none => return ((if n == 125 && k > 0 then v else none, k), false)
    | _, _ => return ((none, k), false)) (← bound) (some 0, 0)
  if v.isSome then skip 1
  return v

/-- The code point of an escape by number, after its `u`. A pair of escapes makes one code point in
Unicode text, and braces have a meaning there. -/
def readUnicodeEscape? : Parse (Option Nat) := do
  if (← unicode) && (← sees 0 '\x7b') then
    skip 1
    readBracedHex?
  else
    match ← readHex? 4 with
    | none => return none
    | some hi =>
      if (← unicode) && 0xD800 ≤ hi && hi < 0xDC00 && (← sees 0 '\\') && (← sees 1 'u') then
        let low ← tentative do
          skip 2
          let v ← readHex? 4
          return v.filter fun lo => 0xDC00 ≤ lo && lo < 0xE000
        match low with
        | some lo => return some (0x10000 + (hi - 0xD800) * 0x400 + (lo - 0xDC00))
        | none => return some hi
      else return some hi

/-- One code point of a group's name: as it is written, as two units, or as an escape. -/
def readNamePoint? : Parse (Option Nat) := do
  match ← peek 0 with
  | none => return none
  | some n =>
    skip 1
    if n == 92 then
      if !(← take 'u') then return none
      if ← sees 0 '\x7b' then
        skip 1
        readBracedHex?
      else readUnicodeEscape?
    else if 0xD800 ≤ n && n < 0xDC00 then
      match ← peek 0 with
      | some lo =>
        if 0xDC00 ≤ lo && lo < 0xE000 then
          skip 1
          return some (0x10000 + (n - 0xD800) * 0x400 + (lo - 0xDC00))
        else return some n
      | none => return some n
    else return some n

def readGroupName? : Parse (Option String) := do
  let name ← repeatParse (fun (acc : Option String) => do
    match acc with
    | none => return (none, false)
    | some s =>
      if ← take '>' then return (if s.isEmpty then none else acc, false)
      match ← readNamePoint? with
      | none => return (none, true)
      | some n =>
        let c := Char.ofNat n
        let fits := if s.isEmpty then Text.beginsName c else Text.continuesName c
        return (if fits then some (s.push c) else none, true)) ((← bound) + 1) (some "")
  return name

/-! ## Single characters -/

/-- A character of a pattern, or a set of them. -/
inductive Atom where
  | char (n : Nat)
  | set (ranges : List (Nat × Nat))

/-- The character that an escape stands for, if it is one by a letter or a number. -/
def readCharEscape? : Parse (Option Nat) := do
  match ← peek 0 with
  | none => return none
  | some n =>
    skip 1
    match Char.ofNat n with
    | 'b' => return some 8
    | 'f' => return some 12
    | 'n' => return some 10
    | 'r' => return some 13
    | 't' => return some 9
    | 'v' => return some 11
    | 'x' => readHex? 2
    | 'u' => readUnicodeEscape?
    | _ =>
      match digitOf? 8 n with
      | none => return none
      | some d =>
        if ← unicode then
          return if d == 0 && !(← seesDigit 0) then some 0 else none
        else octal d 2
where
  /-- A number in at most so many more octal digits. -/
  octal (v : Nat) : Nat → Parse (Option Nat)
    | 0 => return some v
    | k + 1 => do
      match (← peek 0).bind (digitOf? 8) with
      | some d => if v < 32 then do skip 1; octal (v * 8 + d) k else return some v
      | none => return some v

/-- Characters that may be written after a backslash to stand for themselves. -/
def syntaxChars : List Char :=
  ['^', '$', '\\', '.', '*', '+', '?', '(', ')', '[', ']', '\x7b', '\x7d', '|', '/']

/-- What a backslash and the characters after it stand for; the backslash has been passed. -/
def readEscape (inClass : Bool) : Parse Atom := do
  match ← peek 0 with
  | none => throw "unexpected end"
  | some n =>
    let set (ranges : List (Nat × Nat)) : Parse Atom := do
      skip 1
      return .set ranges
    match Char.ofNat n with
    | 'd' => set digits
    | 'D' => set (complement digits)
    | 's' => set blanks
    | 'S' => set (complement blanks)
    | 'w' => set wordChars
    | 'W' => set (complement wordChars)
    | 'c' => control
    | c =>
      if (c == 'p' || c == 'P') && (← unicode) then
        skip 1
        property (c == 'P')
      else
        match ← tentative readCharEscape? with
        | some m => return .char m
        | none =>
          if syntaxChars.contains c || !(← unicode) || (inClass && c == '-') then
            skip 1
            return .char n
          else throw "invalid escape sequence in regular expression"
where
  /-- A control character; without its letter, the backslash stands for itself. -/
  control : Parse Atom := do
    let lenient := inClass && !(← unicode)
    let fits (x : Nat) : Bool :=
      let c := Char.ofNat x
      Text.isAsciiLetter c || (lenient && (Text.isAsciiDigit c || c == '_'))
    match (← peek 1).filter fits with
    | some x =>
      skip 2
      return .char (x % 32)
    | none =>
      if ← unicode then throw "invalid escape sequence in regular expression"
      return .char 92
  /-- A property of characters, after its letter. -/
  property (negated : Bool) : Parse Atom := do
    if !(← take '\x7b') then throw "expecting '\x7b' after \\p"
    let name ← word
    let value ← if ← take '=' then some <$> word else pure none
    if !(← take '\x7d') then throw "expecting '\x7d'"
    match propertyRanges name value with
    | .ok ranges => return .set (if negated then complement ranges else ranges)
    | .error e => throw e
  /-- Letters, digits and underscores. -/
  word : Parse String := do
    repeatParse (fun (s : String) => do
      match ← peek 0 with
      | some n =>
        let c := Char.ofNat n
        if Text.isAsciiLetter c || Text.isAsciiDigit c || c == '_' then
          skip 1
          return (s.push c, true)
        else return (s, false)
      | none => return (s, false)) (← bound) ""

/-- A character of a pattern. -/
def readAtom (inClass : Bool) : Parse Atom := do
  match ← peek 0 with
  | none => throw "unexpected end"
  | some n =>
    skip 1
    if n == 92 then readEscape inClass else return .char n

/-- A set in square brackets, after the one that opens it. -/
def readClass : Parse CharSet := do
  let negated ← take '^'
  let ranges ← repeatParse (fun (acc : List (Nat × Nat)) => do
    if ← take ']' then return (acc, false)
    let first ← readAtom true
    let isRange := (← sees 0 '-') && !(← sees 1 ']')
    let alone (a : Atom) : List (Nat × Nat) :=
      match a with
      | .char n => [(n, n)]
      | .set rs => rs
    if !isRange then return (alone first ++ acc, true)
    match first with
    | .set rs =>
      if ← unicode then throw "invalid class range"
      return (rs ++ acc, true)
    | .char lo =>
      let dash ← get
      skip 1
      match ← readAtom true with
      | .set _ =>
        if ← unicode then throw "invalid class range"
        set dash
        return ((lo, lo) :: acc, true)
      | .char hi =>
        if hi < lo then throw "invalid class range"
        return ((lo, hi) :: acc, true)) ((← bound) + 1) []
  return { ranges, negated }

/-! ## Groups and repetitions -/

def Atom.test : Atom → Test
  | .char n => .char n
  | .set ranges => .set { ranges }

/-- A part of a pattern, and whether it may be repeated. -/
structure Term where
  node : Node
  repeatable : Bool := true

/-- The count in braces that is ahead, if there is one: its least, and its most unless there is
none. -/
def readCount? : Parse (Option (Nat × Option Nat)) := do
  if !(← seesDigit 1) then
    if ← unicode then throw "invalid repetition count"
    return none
  tentative do
    skip 1
    let least ← readNumber
    let most ←
      if ← take ',' then
        if ← seesDigit 0 then do
          let most ← readNumber
          if most < least then throw "invalid repetition count"
          pure (some most)
        else pure none
      else pure (some least)
    if ← take '\x7d' then return some (least, most)
    if ← unicode then throw "expecting '\x7d'"
    return none

/-- How often the term before is repeated, if that is told ahead. -/
def readQuantifier? : Parse (Option (Nat × Option Nat)) := do
  if ← take '*' then return some (0, none)
  else if ← take '+' then return some (1, none)
  else if ← take '?' then return some (0, some 1)
  else if ← sees 0 '\x7b' then readCount?
  else return none

/-- Whether a brace and digits ahead begin a count, which then repeats nothing. -/
def countAhead : Parse Bool := do
  let s ← get
  skip 1
  let _ ← readNumber
  if ← take ',' then let _ ← readNumber
  let ends ← sees 0 '\x7d'
  set s
  return ends

/-- A number after a backslash: a group's, or else a character in octal digits. -/
def readNumbered : Parse Term := do
  let start ← get
  let n ← readNumber
  if n ≤ (← read).groups.length then return { node := .again n }
  if ← unicode then throw "back reference out of range in regular expression"
  set start
  match ← peek 0 with
  | some x =>
    match digitOf? 8 x with
    | some _ =>
      match ← readCharEscape? with
      | some m => return { node := .one (.char m) }
      | none => throw "unexpected end"
    | none =>
      skip 1
      return { node := .one (.char x) }
  | none => throw "unexpected end"

/-- A reference to a group by its name; the backslash and the `k` are ahead. -/
def readNamedReference : Parse (Option Term) := do
  let groups := (← read).groups
  let strict := (← unicode) || groups.any (·.isSome)
  if !(← sees 2 '<') then
    if strict then throw "expecting group name"
    return none
  tentative do
    skip 3
    match ← readGroupName? with
    | none => if strict then throw "invalid group name" else return none
    | some name =>
      match groups.idxOf? (some name) with
      | some i => return some { node := .again (i + 1) }
      | none => if strict then throw "group name not defined" else return none

/-- A part of a pattern with parentheses, after the one that opens it. -/
def readGroup (inner : Parse Node) : Parse Term := do
  let capture (name : Option String) : Parse Term := do
    modify fun s => { s with groups := name :: s.groups }
    let index := (← get).groups.length
    let body ← inner
    expect ')'
    return { node := .group index body }
  let look (ahead negated : Bool) : Parse Term := do
    let body ← inner
    expect ')'
    return { node := .look ahead negated body, repeatable := ahead && !(← unicode) }
  if !(← take '?') then capture none
  else if ← take ':' then
    let body ← inner
    expect ')'
    return { node := body }
  else if ← take '=' then look true false
  else if ← take '!' then look true true
  else if ← take '<' then
    if ← take '=' then look false false
    else if ← take '!' then look false true
    else
      match ← readGroupName? with
      | none => throw "invalid group name"
      | some name =>
        if (← get).groups.contains (some name) then throw "duplicate group name"
        capture (some name)
  else throw "invalid group"

/-- A part of a pattern, without how often it is repeated. -/
def readTerm (inner : Parse Node) : Parse Term := do
  let atom : Parse Term := do return { node := .one (← readAtom false).test }
  match ← peek 0 with
  | none => throw "unexpected end"
  | some n =>
    match Char.ofNat n with
    | '^' =>
      skip 1
      return { node := .lineStart, repeatable := false }
    | '$' =>
      skip 1
      return { node := .lineEnd, repeatable := false }
    | '.' =>
      skip 1
      return { node := .one .any }
    | '\x7b' =>
      if ← unicode then throw "syntax error"
      if (← seesDigit 1) && (← countAhead) then throw "nothing to repeat"
      atom
    | '*' | '+' | '?' => throw "nothing to repeat"
    | '(' =>
      skip 1
      readGroup inner
    | '[' =>
      skip 1
      return { node := .one (.set (← readClass)) }
    | ']' | '\x7d' => if ← unicode then throw "syntax error" else atom
    | '\\' =>
      match ← peek 1 with
      | none => atom
      | some m =>
        match Char.ofNat m with
        | 'b' =>
          skip 2
          return { node := .wordEdge true, repeatable := false }
        | 'B' =>
          skip 2
          return { node := .wordEdge false, repeatable := false }
        | 'k' =>
          match ← readNamedReference with
          | some t => return t
          | none => atom
        | '0' =>
          if (← unicode) && (← seesDigit 2) then
            throw "invalid decimal escape in regular expression"
          atom
        | c =>
          if Text.isAsciiDigit c then
            skip 1
            readNumbered
          else atom
    | _ => atom

/-- Parts of a pattern one after the other. -/
def readSequence (inner : Parse Node) : Parse Node := do
  let parts ← repeatParse (fun (acc : List Node) => do
    let ends ←
      match ← peek 0 with
      | none => pure true
      | some n => pure (n == 124 || n == 41)
    if ends then return (acc, false)
    let before := (← get).groups.length
    let t ← readTerm inner
    let count ← if t.repeatable then readQuantifier? else pure none
    match count with
    | none => return (t.node :: acc, true)
    | some (least, most) =>
      let greedy := !(← take '?')
      let after := (← get).groups.length
      return (.repeated t.node least most greedy (before + 1) after :: acc, true)) (← bound) []
  return parts.foldl (fun after p => match after with | .empty => p | _ => .seq p after) .empty

/-- Sequences of which one is to be found. -/
def readChoice : (depth : Nat) → Parse Node
  | 0 => throw "stack overflow"
  | depth + 1 => do
    let inner := readChoice depth
    let first ← readSequence inner
    repeatParse (fun a => do
      if ← take '|' then return (.either a (← readSequence inner), true)
      else return (a, false)) (← bound) first

/-! ## Whole patterns -/

def groupDepth : Nat := 1000

/-- Looks for the groups of a pattern, without reading it: the names of those that have one. -/
def findGroups : Parse (List (Option String)) := do
  let found ← repeatParse (fun (acc : List (Option String)) => do
    match ← peek 0 with
    | none => return (acc, false)
    | some n =>
      skip 1
      match Char.ofNat n with
      | '\\' =>
        skip 1
        return (acc, true)
      | '[' =>
        let _ ← take ']'
        repeatParse (fun _ => do
          match ← peek 0 with
          | none => return ((), false)
          | some m =>
            if m == 93 then return ((), false)
            skip (if m == 92 then 2 else 1)
            return ((), true)) (← bound) ()
        return (acc, true)
      | '(' =>
        if !(← sees 0 '?') then return (none :: acc, true)
        if !(← sees 1 '<') || (← sees 2 '=') || (← sees 2 '!') then return (acc, true)
        let name ← tentative do
          skip 2
          readGroupName?
        return (name :: acc, true)
      | _ => return (acc, true)) (← bound) []
  return found.reverse

/-- Reads a whole pattern: what it asks for, and the names of its groups. -/
def readPattern (chars : Array Nat) (flags : Flags) :
    Except String (Node × List (Option String)) :=
  let groups :=
    match findGroups { chars, flags, groups := [] } {} with
    | .ok gs _ => gs
    | .error _ _ => []
  let whole : Parse Node := do
    let node ← readChoice groupDepth
    if (← peek 0).isSome then throw "extraneous characters at the end"
    return node
  match whole { chars, flags, groups } {} with
  | .ok node _ => .ok (node, groups)
  | .error e _ => .error e

end ScriptSandbox.Regex
