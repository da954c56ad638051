import ScriptSandbox.Decimal.Shortest

/-!
# JSON values and their text

`Value` is a JSON document. An object keeps its members in the order in which they were written.
A number is a natural number, a negative whole number, or a double; the first two are exact.

`Value.compact` writes a document without blanks; `Value.pretty` indents it by two spaces. Both
write strings the same way: quotes, backslashes and the control characters are escaped, everything
else stands for itself.
-/

namespace ScriptSandbox.Json

/-- A number as a document holds it. -/
inductive Number where
  | natural (n : Nat)
  /-- The number `-(n + 1)`. -/
  | negative (n : Nat)
  | real (x : Float)

/-- A JSON document. -/
inductive Value where
  | null
  | bool (b : Bool)
  | number (n : Number)
  | text (s : String)
  | list (items : List Value)
  | object (members : List (String × Value))

/-- One hexadecimal digit, in lower case. -/
def hexDigit (n : Nat) : Char := Nat.digitChar (n % 16)

/-- Four hexadecimal digits. -/
def hex4 (n : Nat) : List Char :=
  [hexDigit (n / 4096), hexDigit (n / 256), hexDigit (n / 16), hexDigit n]

/-- How a character is written inside a string. -/
def escapeChar (c : Char) : List Char :=
  match c with
  | '"' => ['\\', '"']
  | '\\' => ['\\', '\\']
  | '\n' => ['\\', 'n']
  | '\r' => ['\\', 'r']
  | '\t' => ['\\', 't']
  | '\x08' => ['\\', 'b']
  | '\x0c' => ['\\', 'f']
  | c => if c.toNat < 32 then '\\' :: 'u' :: hex4 c.toNat else [c]

def quote (s : String) : List Char := '"' :: s.toList.flatMap escapeChar ++ ['"']

/-- A double: positional from `10^-4` up to but not including `10^16`, else with a signed exponent
of at least two digits; a whole number keeps one decimal. -/
def realText (x : Float) : List Char :=
  let (negative, p) := Decimal.parts x
  let body : List Char :=
    match p with
    | .zero => "0.0".toList
    | .infinite | .nan => "null".toList
    | .finite i =>
      let s := Decimal.shortestDigits i
      let ds := Decimal.digitChars s.digits
      let e : Int := s.exponent + ds.length - 1
      if -5 < e && e < 16 then
        if e < 0 then "0.".toList ++ Decimal.zeros (-e - 1).toNat ++ ds
        else if s.exponent ≥ 0 then ds ++ Decimal.zeros s.exponent.toNat ++ ".0".toList
        else ds.take (e.toNat + 1) ++ '.' :: ds.drop (e.toNat + 1)
      else
        let mantissa := match ds with
          | [d] => [d]
          | d :: rest => d :: '.' :: rest
          | [] => []
        let power := Decimal.digitChars e.natAbs
        let padded := if power.length < 2 then '0' :: power else power
        mantissa ++ 'e' :: (if e < 0 then '-' else '+') :: padded
  if negative then '-' :: body else body

def Number.text : Number → List Char
  | .natural n => Decimal.digitChars n
  | .negative n => '-' :: Decimal.digitChars (n + 1)
  | .real x => realText x

/-! ## Writing -/

mutual

/-- The document without blanks. -/
def Value.compactChars : Value → List Char
  | .null => "null".toList
  | .bool true => "true".toList
  | .bool false => "false".toList
  | .number n => n.text
  | .text s => quote s
  | .list [] => "[]".toList
  | .list (v :: vs) => '[' :: v.compactChars ++ compactItems vs
  | .object [] => "\x7b\x7d".toList
  | .object ((k, v) :: ms) => '\x7b' :: quote k ++ ':' :: v.compactChars ++ compactMembers ms

/-- The rest of a list after its first item, with the closing bracket. -/
def compactItems : List Value → List Char
  | [] => [']']
  | v :: vs => ',' :: v.compactChars ++ compactItems vs

/-- The rest of an object after its first member, with the closing brace. -/
def compactMembers : List (String × Value) → List Char
  | [] => ['\x7d']
  | (k, v) :: ms => ',' :: quote k ++ ':' :: v.compactChars ++ compactMembers ms

end

def lineBreak (depth : Nat) : List Char := '\n' :: List.replicate (2 * depth) ' '

mutual

/-- The document with one item or member a line, from an indentation depth. -/
def Value.prettyChars (depth : Nat) : Value → List Char
  | .null => "null".toList
  | .bool true => "true".toList
  | .bool false => "false".toList
  | .number n => n.text
  | .text s => quote s
  | .list [] => "[]".toList
  | .list (v :: vs) =>
    '[' :: lineBreak (depth + 1) ++ v.prettyChars (depth + 1) ++ prettyItems depth vs
  | .object [] => "\x7b\x7d".toList
  | .object ((k, v) :: ms) =>
    '\x7b' :: lineBreak (depth + 1) ++ quote k ++ ':' :: ' ' :: v.prettyChars (depth + 1)
      ++ prettyMembers depth ms

/-- The rest of an indented list after its first item. -/
def prettyItems (depth : Nat) : List Value → List Char
  | [] => lineBreak depth ++ [']']
  | v :: vs => ',' :: lineBreak (depth + 1) ++ v.prettyChars (depth + 1) ++ prettyItems depth vs

/-- The rest of an indented object after its first member. -/
def prettyMembers (depth : Nat) : List (String × Value) → List Char
  | [] => lineBreak depth ++ ['\x7d']
  | (k, v) :: ms =>
    ',' :: lineBreak (depth + 1) ++ quote k ++ ':' :: ' ' :: v.prettyChars (depth + 1)
      ++ prettyMembers depth ms

end

/-- The text without blanks. -/
def Value.compact (v : Value) : String := String.ofList v.compactChars

/-- The text indented by two spaces. -/
def Value.pretty (v : Value) : String := String.ofList (v.prettyChars 0)

end ScriptSandbox.Json
