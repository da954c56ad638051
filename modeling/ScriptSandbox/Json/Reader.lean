import ScriptSandbox.Json.Value

/-!
# Reading JSON text

A `Reader` stands at a place in a text and knows the line and the column it has reached: columns
count bytes, a line break starts the next line at column 0. A reading step either returns a value
and the reader after it, or a `Fault`.

A fault found while looking at the text is *placed*: it carries the line and column that its
message names. A fault found in the content of a list or an object (a field missing, a field given
twice) is *loose*: it gets its place only after the reader has tried to close the container, which
is why it carries the reader it arose at.
-/

namespace ScriptSandbox.Json

/-! ## Faults -/

/-- What stood where something else was wanted. -/
inductive Found where
  | null
  | bool (b : Bool)
  | integer (n : Int)
  | real (x : Float)
  | text (s : String)
  | list
  | object

/-- Why a text was refused. -/
inductive Reason where
  | endInList
  | endInObject
  | endInString
  | endInValue
  | wantedColon
  | wantedCommaOrBracket
  | wantedCommaOrBrace
  | wantedWord
  | wantedValue
  | badEscape
  | badNumber
  | numberTooLarge
  | controlCharacter
  | keyNotText
  | loneSurrogate
  | surrogateCutShort
  | trailingComma
  | trailingText
  | tooDeep
  | wrongType (found : Found) (wanted : String)
  | wrongValue (found : Found) (wanted : String)
  | wrongLength (length : Nat) (wanted : String)
  | unknownVariant (name : String) (names : List String)
  | missingField (name : String)
  | duplicateField (name : String)

/-- Characters that a quoted piece of text in a message shows by their code. -/
def isHidden (c : Char) : Bool :=
  let n := c.toNat
  n < 32 || (0x7f ≤ n && n < 0xa1) || n == 0xad || (0x300 ≤ n && n < 0x370)
    || (0x200b ≤ n && n < 0x2010) || (0x2000 ≤ n && n < 0x200b) || (0x2028 ≤ n && n < 0x2030)
    || (0x205f ≤ n && n < 0x2070) || n == 0x3000 || n == 0x1680 || n == 0xfeff
    || (0xfff0 ≤ n && n < 0xfffc) || (0xe000 ≤ n && n < 0xf900) || (0xe0000 ≤ n)

/-- A piece of text in quotes as a message shows it. -/
def quoteForMessage (s : String) : String :=
  let shown (c : Char) : List Char :=
    match c with
    | '"' => ['\\', '"']
    | '\\' => ['\\', '\\']
    | '\n' => ['\\', 'n']
    | '\r' => ['\\', 'r']
    | '\t' => ['\\', 't']
    | '\x00' => ['\\', '0']
    | c =>
      if isHidden c then '\\' :: 'u' :: '\x7b' :: Nat.toDigits 16 c.toNat ++ ['\x7d'] else [c]
  String.ofList ('"' :: s.toList.flatMap shown ++ ['"'])

def Found.message : Found → String
  | .null => "null"
  | .bool b => "boolean `" ++ toString b ++ "`"
  | .integer n => "integer `" ++ toString n ++ "`"
  | .real x => "floating point `" ++ String.ofList (realText x) ++ "`"
  | .text s => "string " ++ quoteForMessage s
  | .list => "sequence"
  | .object => "map"

def oneOf : List String → String
  | [] => "there are no variants"
  | [a] => "expected `" ++ a ++ "`"
  | [a, b] => "expected `" ++ a ++ "` or `" ++ b ++ "`"
  | names => "expected one of " ++ ", ".intercalate (names.map fun n => "`" ++ n ++ "`")

/-- The message of a reason, without its place. -/
def Reason.message : Reason → String
  | .endInList => "EOF while parsing a list"
  | .endInObject => "EOF while parsing an object"
  | .endInString => "EOF while parsing a string"
  | .endInValue => "EOF while parsing a value"
  | .wantedColon => "expected `:`"
  | .wantedCommaOrBracket => "expected `,` or `]`"
  | .wantedCommaOrBrace => "expected `,` or `\x7d`"
  | .wantedWord => "expected ident"
  | .wantedValue => "expected value"
  | .badEscape => "invalid escape"
  | .badNumber => "invalid number"
  | .numberTooLarge => "number out of range"
  | .controlCharacter =>
    "control character (\\u0000-\\u001F) found while parsing a string"
  | .keyNotText => "key must be a string"
  | .loneSurrogate => "lone leading surrogate in hex escape"
  | .surrogateCutShort => "unexpected end of hex escape"
  | .trailingComma => "trailing comma"
  | .trailingText => "trailing characters"
  | .tooDeep => "recursion limit exceeded"
  | .wrongType found wanted => "invalid type: " ++ found.message ++ ", expected " ++ wanted
  | .wrongValue found wanted => "invalid value: " ++ found.message ++ ", expected " ++ wanted
  | .wrongLength n wanted => "invalid length " ++ toString n ++ ", expected " ++ wanted
  | .unknownVariant name names => "unknown variant `" ++ name ++ "`, " ++ oneOf names
  | .missingField name => "missing field `" ++ name ++ "`"
  | .duplicateField name => "duplicate field `" ++ name ++ "`"

/-! ## The reader -/

/-- A place in a text. -/
structure Reader where
  rest : List Char
  line : Nat := 1
  column : Nat := 0
  /-- How many more containers may be entered, plus one. -/
  depth : Nat := 128

/-- A refusal, with the line and column it names or with the reader it arose at. -/
inductive Fault where
  | placed (reason : Reason) (line column : Nat)
  | loose (reason : Reason) (at_ : Reader)

/-- A reading step. -/
abbrev Read (α : Type) := Reader → Except Fault (α × Reader)

def Fault.message : Fault → String
  | .placed reason line column =>
    reason.message ++ " at line " ++ toString line ++ " column " ++ toString column
  | .loose reason _ => reason.message

namespace Reader

def start (s : String) : Reader := ⟨s.toList, 1, 0, 128⟩

def skip (r : Reader) : Reader :=
  match r.rest with
  | [] => r
  | c :: cs =>
    if c == '\n' then ⟨cs, r.line + 1, 0, r.depth⟩ else ⟨cs, r.line, r.column + c.utf8Size, r.depth⟩

/-- The next character. -/
def peek? (r : Reader) : Option Char := r.rest.head?

def fail {α : Type} (r : Reader) (reason : Reason) : Except Fault α :=
  .error (.placed reason r.line r.column)

/-- A fault at the character ahead: its first byte, or the end of the text. -/
def failAhead {α : Type} (r : Reader) (reason : Reason) : Except Fault α :=
  match r.rest with
  | [] => r.fail reason
  | c :: _ =>
    if c == '\n' then .error (.placed reason (r.line + 1) 0)
    else .error (.placed reason r.line (r.column + 1))

def isBlank (c : Char) : Bool := c == ' ' || c == '\n' || c == '\t' || c == '\r'

def skipMany : Nat → Reader → Reader
  | 0, r => r
  | n + 1, r => skipMany n r.skip

def skipBlanks (r : Reader) : Reader := skipMany (r.rest.takeWhile isBlank).length r

def place {α : Type} : Except Fault α → Except Fault α
  | .error (.loose reason r) => .error (.placed reason r.line r.column)
  | x => x

end Reader

/-! ## Words, strings, numbers -/

/-- Reads the characters of a word one by one. -/
def readWord : List Char → Read Unit
  | [], r => .ok ((), r)
  | w :: ws, r =>
    match r.rest with
    | [] => r.fail .endInValue
    | c :: _ => if c == w then readWord ws r.skip else r.skip.fail .wantedWord

def hexValue? (c : Char) : Option Nat :=
  if '0' ≤ c && c ≤ '9' then some (c.toNat - 48)
  else if 'a' ≤ c && c ≤ 'f' then some (c.toNat - 87)
  else if 'A' ≤ c && c ≤ 'F' then some (c.toNat - 55)
  else none

def hex4? : List Char → Option Nat
  | a :: b :: c :: d :: _ => do
    let a ← hexValue? a
    let b ← hexValue? b
    let c ← hexValue? c
    let d ← hexValue? d
    return ((a * 16 + b) * 16 + c) * 16 + d
  | _ => none

/-- The reader behind the next `n` bytes, or the end of the text; a character that the last byte
cuts is counted by its bytes so far. -/
def skipBytes : Nat → Reader → Reader
  | 0, r => r
  | n + 1, r =>
    match r.rest with
    | [] => r
    | c :: cs =>
      if n + 1 < c.utf8Size then { r with rest := cs, column := r.column + (n + 1) }
      else skipBytes (n + 1 - c.utf8Size) r.skip
  termination_by n => n
  decreasing_by have := Char.utf8Size_pos c; omega

/-- Reads the four digits of an escape by code. -/
def readHex4 : Read Nat := fun r =>
  if (String.ofList r.rest).utf8ByteSize < 4 then
    (Reader.skipMany r.rest.length r).fail .endInString
  else
    match hex4? r.rest with
    | some n => .ok (n, Reader.skipMany 4 r)
    | none => (skipBytes 4 r).fail .badEscape

/-- Reads an escape by code whose `\u` has been read; two surrogates make one character. -/
def readUnicode : Read Char := fun r => do
  let (n, r) ← readHex4 r
  if 0xDC00 ≤ n && n ≤ 0xDFFF then r.fail .loneSurrogate
  else if n < 0xD800 || n > 0xDBFF then .ok (Char.ofNat n, r)
  else
    match r.peek? with
    | none => r.fail .endInString
    | some c =>
      if c != '\\' then r.skip.fail .surrogateCutShort
      else
        let r := r.skip
        match r.peek? with
        | none => r.fail .endInString
        | some c =>
          if c != 'u' then r.skip.fail .surrogateCutShort
          else do
            let (n2, r) ← readHex4 r.skip
            if n2 < 0xDC00 || n2 > 0xDFFF then r.fail .loneSurrogate
            else .ok (Char.ofNat (0x10000 + (n - 0xD800) * 0x400 + (n2 - 0xDC00)), r)

def simpleEscape? : Char → Option Char
  | '"' => some '"'
  | '\\' => some '\\'
  | '/' => some '/'
  | 'b' => some '\x08'
  | 'f' => some '\x0c'
  | 'n' => some '\n'
  | 'r' => some '\r'
  | 't' => some '\t'
  | _ => none

/-- Reads a string whose opening quote has been read; `fuel` bounds the number of characters and
`done` holds those already read, latest first. -/
def readStringFrom : (fuel : Nat) → (done : List Char) → Read String
  | 0, _, r => r.fail .endInString
  | fuel + 1, done, r =>
    match r.rest with
    | [] => r.fail .endInString
    | c :: _ =>
      if c == '"' then .ok (String.ofList done.reverse, r.skip)
      else if c == '\\' then
        let r := r.skip
        match r.rest with
        | [] => r.fail .endInString
        | e :: _ =>
          if e == 'u' then
            match readUnicode r.skip with
            | .error f => .error f
            | .ok (x, r) => readStringFrom fuel (x :: done) r
          else
            match simpleEscape? e with
            | some x => readStringFrom fuel (x :: done) r.skip
            | none => r.skip.fail .badEscape
      else if c.toNat < 32 then r.skip.fail .controlCharacter
      else readStringFrom fuel (c :: done) r.skip

def readString : Read String := fun r => readStringFrom (r.rest.length + 1) [] r

/-- Passes over a string whose opening quote has been read: an escape by code needs four digits,
and any four will do. -/
def ignoreStringFrom : (fuel : Nat) → Read Unit
  | 0, r => r.fail .endInString
  | fuel + 1, r =>
    match r.rest with
    | [] => r.fail .endInString
    | c :: _ =>
      if c == '"' then .ok ((), r.skip)
      else if c == '\\' then
        let r := r.skip
        match r.rest with
        | [] => r.fail .endInString
        | e :: _ =>
          if e == 'u' then
            match readHex4 r.skip with
            | .error f => .error f
            | .ok (_, r) => ignoreStringFrom fuel r
          else if (simpleEscape? e).isSome then ignoreStringFrom fuel r.skip
          else r.skip.fail .badEscape
      else if c.toNat < 32 then r.skip.fail .controlCharacter
      else ignoreStringFrom fuel r.skip

def digitAhead (r : Reader) : Bool :=
  match r.peek? with
  | some c => '0' ≤ c && c ≤ '9'
  | none => false

/-- Reads the digits ahead onto the number `n`. -/
def readDigits : Nat → Reader → Nat × Reader := fun n r =>
  let ds := r.rest.takeWhile fun c => '0' ≤ c && c ≤ '9'
  (ds.foldl (fun n c => n * 10 + (c.toNat - 48)) n, Reader.skipMany ds.length r)

/-- A decimal as a double: the digits as a double, scaled by powers of ten that a double holds, in
as few steps as their range allows. -/
def scaled? (positive : Bool) (digits : Float) (exponent : Int) : Option Float :=
  let rec go : Nat → Float → Int → Option Float
    | 0, f, _ => some f
    | fuel + 1, f, e =>
      if e.natAbs ≤ 308 then
        let p := Float.ofScientific 1 false e.natAbs
        if e ≥ 0 then
          let g := f * p
          if g.isInf then none else some g
        else some (f / p)
      else if f == 0.0 then some f
      else if e ≥ 0 then none
      else go fuel (f / 1e308) (e + 308)
  (go 16 digits exponent).map fun f => if positive then f else -f

/-- The digits that fit 64 bits, and how many digits behind them do not. -/
def fitting (n : Nat) : List Char → Nat × Nat
  | [] => (n, 0)
  | c :: cs =>
    let m := n * 10 + (c.toNat - 48)
    if m < Nat.pow 2 64 then fitting m cs else (n, (c :: cs).length)

def readExponent (positive : Bool) (digits : Nat) (exponent : Int) : Read Number := fun r => do
  let (up, r) := match r.peek? with
    | some '+' => (true, r.skip)
    | some '-' => (false, r.skip)
    | _ => (true, r)
  match r.peek? with
  | none => r.fail .endInValue
  | some _ =>
    if !digitAhead r then r.skip.fail .badNumber
    else
      let (n, r) := readDigits 0 r
      if n ≥ Nat.pow 2 31 then
        if digits != 0 && up then r.fail .numberTooLarge
        else .ok (.real (if positive then 0.0 else -0.0), r)
      else
        match scaled? positive (Float.ofNat digits) (if up then exponent + n else exponent - n) with
        | some x => .ok (.real x, r)
        | none => r.fail .numberTooLarge

/-- Reads the part of a number behind its whole digits. -/
def readNumberTail (positive : Bool) (whole : List Char) : Read Number := fun r => do
  let (digits, excess) := fitting 0 whole
  let real (digits : Nat) (exponent : Int) (r : Reader) : Except Fault (Number × Reader) :=
    match r.peek? with
    | some 'e' | some 'E' => readExponent positive digits exponent r.skip
    | _ =>
      match scaled? positive (Float.ofNat digits) exponent with
      | some x => .ok (.real x, r)
      | none => r.fail .numberTooLarge
  match r.peek? with
  | some '.' =>
    let r := r.skip
    let ds := r.rest.takeWhile fun c => '0' ≤ c && c ≤ '9'
    if ds.isEmpty then
      if r.rest.isEmpty then r.failAhead .endInValue else r.failAhead .badNumber
    else
      let (digits, dropped) := fitting digits ds
      real digits ((excess : Int) - ((ds.length - dropped : Nat) : Int))
        (Reader.skipMany ds.length r)
  | some 'e' | some 'E' => readExponent positive digits excess r.skip
  | _ =>
    if excess != 0 then real digits excess r
    else if positive then .ok (.natural digits, r)
    else if digits == 0 || digits > Nat.pow 2 63 then .ok (.real (-(Float.ofNat digits)), r)
    else .ok (.negative (digits - 1), r)

def readNumber (positive : Bool) : Read Number := fun r =>
  match r.rest with
  | [] => r.fail .endInValue
  | c :: _ =>
    if c == '0' then
      let r := r.skip
      if digitAhead r then r.failAhead .badNumber else readNumberTail positive ['0'] r
    else if '1' ≤ c && c ≤ '9' then
      let ds := r.rest.takeWhile fun c => '0' ≤ c && c ≤ '9'
      readNumberTail positive ds (Reader.skipMany ds.length r)
    else r.skip.fail .badNumber

/-- Passes over the exponent of a number whose `e` has been read. -/
def ignoreExponent : Read Unit := fun r =>
  let r := match r.peek? with
    | some '+' | some '-' => r.skip
    | _ => r
  if digitAhead r then .ok ((), (readDigits 0 r).2) else r.skip.fail .badNumber

def ignoreNumber : Read Unit := fun r => do
  let r ← match r.rest with
    | [] => r.fail .badNumber
    | c :: _ =>
      if c == '0' then
        if digitAhead r.skip then r.skip.failAhead .badNumber else .ok r.skip
      else if '1' ≤ c && c ≤ '9' then .ok (readDigits 0 r).2
      else r.skip.fail .badNumber
  match r.peek? with
  | some '.' =>
    let r := r.skip
    if !digitAhead r then r.failAhead .badNumber
    else
      let r := (readDigits 0 r).2
      match r.peek? with
      | some 'e' | some 'E' => ignoreExponent r.skip
      | _ => .ok ((), r)
  | some 'e' | some 'E' => ignoreExponent r.skip
  | _ => .ok ((), r)

/-! ## Passing over a value

Values of no interest are passed over with a list of the open containers instead of recursion, so
that any depth will do. -/

/-- What a pass is about to meet. -/
inductive Skipping where
  /-- A value. -/
  | value
  /-- A comma or the end of the innermost container, or its first entry if it has just opened. -/
  | entry (opened : Bool)

/-- Passes over a value and what follows it until the containers in `open_` are closed; `true`
stands for an object, `false` for a list. -/
def ignoreFrom : (fuel : Nat) → Skipping → (open_ : List Bool) → Read Unit
  | 0, _, _, r => r.failAhead .endInValue
  | fuel + 1, .value, open_, r =>
    let r := r.skipBlanks
    let after (x : Except Fault (Unit × Reader)) : Except Fault (Unit × Reader) :=
      match x with
      | .error f => .error f
      | .ok (_, r) => if open_.isEmpty then .ok ((), r) else ignoreFrom fuel (.entry false) open_ r
    match r.peek? with
    | none => r.failAhead .endInValue
    | some 'n' => after (readWord "ull".toList r.skip)
    | some 't' => after (readWord "rue".toList r.skip)
    | some 'f' => after (readWord "alse".toList r.skip)
    | some '-' => after (ignoreNumber r.skip)
    | some '"' => after (ignoreStringFrom (r.rest.length + 1) r.skip)
    | some '[' => ignoreFrom fuel (.entry true) (false :: open_) r.skip
    | some '\x7b' => ignoreFrom fuel (.entry true) (true :: open_) r.skip
    | some c =>
      if '0' ≤ c && c ≤ '9' then after (ignoreNumber r) else r.failAhead .wantedValue
  | _ + 1, .entry _, [], r => .ok ((), r)
  | fuel + 1, .entry opened, isObject :: outer, r =>
    let r := r.skipBlanks
    let next (r : Reader) : Except Fault (Unit × Reader) :=
      if isObject then
        let r := r.skipBlanks
        match r.peek? with
        | none => r.failAhead .endInObject
        | some '"' =>
          match ignoreStringFrom (r.rest.length + 1) r.skip with
          | .error f => .error f
          | .ok (_, r) =>
            let r := r.skipBlanks
            match r.peek? with
            | some ':' => ignoreFrom fuel .value (isObject :: outer) r.skip
            | some _ => r.failAhead .wantedColon
            | none => r.failAhead .endInObject
        | some _ => r.failAhead .keyNotText
      else ignoreFrom fuel .value (isObject :: outer) r
    match r.peek? with
    | none => r.failAhead (if isObject then .endInObject else .endInList)
    | some c =>
      if c == (if isObject then '\x7d' else ']') then
        if outer.isEmpty then .ok ((), r.skip) else ignoreFrom fuel (.entry false) outer r.skip
      else if opened then next r
      else if c == ',' then next r.skip
      else r.failAhead (if isObject then .wantedCommaOrBrace else .wantedCommaOrBracket)

def ignoreValue : Read Unit := fun r => ignoreFrom (2 * r.rest.length + 2) .value [] r

/-! ## Containers -/

/-- Closes a list: the fault found there, if any, and the reader reached either way. -/
def closeList (r : Reader) : Option Fault × Reader :=
  let r := r.skipBlanks
  let fault (x : Except Fault Unit) : Option Fault :=
    match x with
    | .error f => some f
    | .ok _ => none
  match r.peek? with
  | some ']' => (none, r.skip)
  | some ',' =>
    let r := r.skip.skipBlanks
    match r.peek? with
    | some ']' => (fault (r.failAhead .trailingComma), r)
    | _ => (fault (r.failAhead .trailingText), r)
  | some _ => (fault (r.failAhead .trailingText), r)
  | none => (fault (r.failAhead .endInList), r)

/-- Closes an object: the fault found there, if any, and the reader reached either way. -/
def closeObject (r : Reader) : Option Fault × Reader :=
  let r := r.skipBlanks
  let fault (x : Except Fault Unit) : Option Fault :=
    match x with
    | .error f => some f
    | .ok _ => none
  match r.peek? with
  | some '\x7d' => (none, r.skip)
  | some ',' => (fault (r.failAhead .trailingComma), r)
  | some _ => (fault (r.failAhead .trailingText), r)
  | none => (fault (r.failAhead .endInObject), r)

/-- Reads the body of a container whose opening bracket is ahead, then closes it. A loose fault of
the body is placed where the attempt to close ended. -/
def readContainer {α : Type} (close : Reader → Option Fault × Reader) (body : Read α) : Read α :=
  fun r =>
    if r.depth ≤ 1 then r.failAhead .tooDeep
    else
      match body { r.skip with depth := r.depth - 1 } with
      | .error (.placed reason line column) => .error (.placed reason line column)
      | .error (.loose reason r') =>
        let r' := (close r').2
        .error (.placed reason r'.line r'.column)
      | .ok (a, r') =>
        match close r' with
        | (some f, _) => .error f
        | (none, r'') => .ok (a, { r'' with depth := r.depth })

/-- Whether another item of a list follows; the reader then stands before it. -/
def nextItem (first : Bool) : Read Bool := fun r =>
  let r := r.skipBlanks
  match r.peek? with
  | none => r.failAhead .endInList
  | some ']' => .ok (false, r)
  | some c =>
    if first then .ok (true, r)
    else if c == ',' then
      let r := r.skip.skipBlanks
      match r.peek? with
      | some ']' => r.failAhead .trailingComma
      | some _ => .ok (true, r)
      | none => r.failAhead .endInValue
    else r.failAhead .wantedCommaOrBracket

/-- The key of the next member of an object, if one follows. -/
def nextKey (first : Bool) : Read (Option String) := fun r =>
  let r := r.skipBlanks
  let key (r : Reader) : Except Fault (Option String × Reader) :=
    match readString r.skip with
    | .ok (s, r) => .ok (some s, r)
    | .error f => .error f
  match r.peek? with
  | none => r.failAhead .endInObject
  | some '\x7d' => .ok (none, r)
  | some c =>
    if first then
      if c == '"' then key r else r.failAhead .keyNotText
    else if c == ',' then
      let r := r.skip.skipBlanks
      match r.peek? with
      | some '"' => key r
      | some '\x7d' => r.failAhead .trailingComma
      | some _ => r.failAhead .keyNotText
      | none => r.failAhead .endInValue
    else r.failAhead .wantedCommaOrBrace

/-- Reads the colon between a key and its value. -/
def readColon : Read Unit := fun r =>
  let r := r.skipBlanks
  match r.peek? with
  | some ':' => .ok ((), r.skip)
  | some _ => r.failAhead .wantedColon
  | none => r.failAhead .endInObject

def readItems {α : Type} (item : Read α) : (fuel : Nat) → (first : Bool) → List α → Read (List α)
  | 0, _, _, r => r.failAhead .endInList
  | fuel + 1, first, done, r =>
    match nextItem first r with
    | .error f => .error f
    | .ok (false, r) => .ok (done.reverse, r)
    | .ok (true, r) =>
      match item r with
      | .error f => .error f
      | .ok (a, r) => readItems item fuel false (a :: done) r

/-- Reads the members of an object up to its end, passing each key and the state so far to
`member`, which reads the colon and the value. -/
def readMembers {σ : Type} (member : String → σ → Read σ) :
    (fuel : Nat) → (first : Bool) → σ → Read σ
  | 0, _, _, r => r.failAhead .endInObject
  | fuel + 1, first, st, r =>
    match nextKey first r with
    | .error f => .error f
    | .ok (none, r) => .ok (st, r)
    | .ok (some k, r) =>
      match member k st r with
      | .error f => .error f
      | .ok (st, r) => readMembers member fuel false st r

/-- Reads a value of any kind; `depth` is how many containers may still be entered. -/
def readAny : (depth : Nat) → Read Value
  | 0, r => r.failAhead .tooDeep
  | depth + 1, r =>
    let r := r.skipBlanks
    let word (w : String) (v : Value) : Except Fault (Value × Reader) :=
      match readWord w.toList r.skip with
      | .ok (_, r) => .ok (v, r)
      | .error f => .error f
    let number (positive : Bool) (r : Reader) : Except Fault (Value × Reader) :=
      match readNumber positive r with
      | .ok (n, r) => .ok (.number n, r)
      | .error f => .error f
    match r.peek? with
    | none => r.failAhead .endInValue
    | some 'n' => word "ull" .null
    | some 't' => word "rue" (.bool true)
    | some 'f' => word "alse" (.bool false)
    | some '-' => number false r.skip
    | some '"' =>
      match readString r.skip with
      | .ok (s, r) => .ok (.text s, r)
      | .error f => .error f
    | some '[' =>
      readContainer closeList (fun r =>
        match readItems (readAny depth) (r.rest.length + 1) true [] r with
        | .ok (vs, r) => .ok (.list vs, r)
        | .error f => .error f) r
    | some '\x7b' =>
      readContainer closeObject (fun r =>
        match readMembers (fun k ms r =>
            match readColon r with
            | .error f => .error f
            | .ok (_, r) =>
              match readAny depth r with
              | .ok (v, r) => .ok ((k, v) :: ms, r)
              | .error f => .error f) (r.rest.length + 1) true [] r with
        | .ok (ms, r) => .ok (.object ms.reverse, r)
        | .error f => .error f) r
    | some c =>
      if '0' ≤ c && c ≤ '9' then number true r else r.failAhead .wantedValue

/-- The fault that a value of the wrong type ahead causes, where `wanted` was wanted. -/
def wrongTypeAhead {α : Type} (wanted : String) (r : Reader) : Except Fault α :=
  let place (found : Found) (r : Reader) : Except Fault α := r.fail (.wrongType found wanted)
  let word (w : String) (found : Found) : Except Fault α :=
    match readWord w.toList r.skip with
    | .ok (_, r) => place found r
    | .error f => .error f
  let number (positive : Bool) (r : Reader) : Except Fault α :=
    match readNumber positive r with
    | .ok (.natural n, r) => place (.integer n) r
    | .ok (.negative n, r) => place (.integer (-(n + 1 : Nat))) r
    | .ok (.real x, r) => place (.real x) r
    | .error f => .error f
  match r.peek? with
  | some 'n' => word "ull" .null
  | some 't' => word "rue" (.bool true)
  | some 'f' => word "alse" (.bool false)
  | some '-' => number false r.skip
  | some '"' =>
    match readString r.skip with
    | .ok (s, r) => place (.text s) r
    | .error f => .error f
  | some '[' => place .list r
  | some '\x7b' => place .object r
  | some c => if '0' ≤ c && c ≤ '9' then number true r else r.failAhead .wantedValue
  | none => r.failAhead .wantedValue

end ScriptSandbox.Json
