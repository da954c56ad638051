import ScriptSandbox.Text.Class
import ScriptSandbox.Machine.Numeral
import ScriptSandbox.Language.Tree

/-!
# Tokens

The reader takes a source token by token, one ahead. What a slash means, and where the text of a
template goes on, depends on the place in the grammar, so the reader asks for these tokens again
once it knows (`rescanRegex`, `rescanTemplate`).

`Reading` is a computation on a `ReaderState` that may fail with a `SourceFault`: a message, and
the place of the token that is to blame.
-/

namespace ScriptSandbox.Language

/-- A mistake in a source. -/
structure SourceFault where
  message : String
  line : Nat
  /-- Counted from zero. -/
  column : Nat
  /-- Whether the mistake is found at a place; some come to light only when the source as a whole
  has been read. -/
  placed : Bool := true
  /-- The source is nested too deeply, or has no end that could be reached. -/
  tooDeep : Bool := false
  deriving Inhabited

/-- A token. -/
inductive Token where
  | eof
  /-- A name or a keyword; an escaped one is never a keyword. -/
  | word (s : String) (escaped : Bool)
  | hidden (s : String)
  | sign (s : String)
  | number (x : Float)
  | bigint (n : Nat)
  | string (s : Str)
  /-- A piece of a template; its value is absent if an escape in it has none. -/
  | template (cooked : Option Str) (raw : Str) (last : Bool)
  | regex (body flags : Str)
  deriving Inhabited

/-- What a block declares. -/
structure Declared where
  lexical : List String := []
  /-- Names of `var`, also of the blocks inside. -/
  vars : List String := []
  /-- For the body of a `catch` clause, the name that the clause binds. -/
  caught : Option String := none
  deriving Inhabited

/-- What is known about the function that is being read. -/
structure FunctionState where
  strict : Bool
  isAsync : Bool := false
  isGenerator : Bool := false
  isArrow : Bool := false
  returns : Bool := true
  superCall : Bool := false
  superMember : Bool := false
  newTarget : Bool := true
  /-- Whether `arguments` may be mentioned. -/
  argumentsAllowed : Bool := true
  isStaticBlock : Bool := false
  /-- Whether the parameters have been read. -/
  inBody : Bool := true
  /-- In the parameters of an arrow function, whether the function around it may await and yield. -/
  awaitsAround : Bool := false
  yieldsAround : Bool := false
  /-- Names that occur in the function itself. -/
  used : List String := []
  /-- Names that occur in the functions inside. -/
  inner : List String := []
  hasEval : Bool := false
  /-- The labels around, and whether each stands before a loop. -/
  labels : List (String × Bool) := []
  loops : Nat := 0
  switches : Nat := 0
  params : List String := []
  /-- What each block around declares, the innermost first. -/
  scopes : List Declared := [{}]
  /-- Whether the function stands for a whole script or module. -/
  isTop : Bool := false
  deriving Inhabited

/-- The state of a reader. -/
structure ReaderState where
  source : Array Char
  /-- The place after the token ahead. -/
  next : Nat := 0
  line : Nat := 1
  /-- The offset at which the line begins. -/
  lineStart : Nat := 0
  token : Token := .eof
  /-- Where the token ahead begins. -/
  start : Nat := 0
  startLine : Nat := 1
  startLineStart : Nat := 0
  /-- Whether a line break stands before the token ahead. -/
  afterBreak : Bool := false
  /-- The place after the token read last. -/
  lastEnd : Nat := 0
  isModule : Bool := false
  awaits : Bool := false
  functions : List FunctionState := []

abbrev Reading (α : Type) : Type := EStateM SourceFault ReaderState α

namespace Reading

def current : Reading FunctionState := do return (← get).functions.headD default

/-- Changes what is known about the function that is being read. -/
def change (f : FunctionState → FunctionState) : Reading Unit :=
  modify fun s =>
    match s.functions with
    | [] => s
    | c :: cs => { s with functions := f c :: cs }

def fail {α : Type} (message : String) : Reading α := fun s =>
  .error { message, line := s.startLine, column := s.start - s.startLineStart } s

/-- Fails where the characters end that have been looked at. -/
def failHere {α : Type} (message : String) : Reading α := fun s =>
  .error { message, line := s.line, column := s.next - s.lineStart } s

def failUnplaced {α : Type} (message : String) : Reading α := fun s =>
  .error { message, line := s.startLine, column := 0, placed := false } s

/-- Fails because the source is nested too deeply. -/
def tooDeep {α : Type} : Reading α := fun s =>
  .error { message := "stack overflow", line := s.startLine, column := 0, tooDeep := true } s

/-- The character at a distance from the next one. -/
def peekChar (s : ReaderState) (k : Nat) : Char := s.source.getD (s.next + k) '\x00'

/-- Whether there are no more characters. -/
def atEnd (s : ReaderState) : Bool := s.next ≥ s.source.size

/-- Passes characters within a line. -/
def pass (k : Nat) : Reading Unit := modify fun s => { s with next := s.next + k }

/-- The place of the token ahead, as it is kept in trees. -/
def position : Reading Pos := do
  let s ← get
  return ⟨s.startLine, s.start - s.startLineStart + 1⟩

def sourceText (source : Array Char) (a b : Nat) : String :=
  String.ofList (source.extract a b).toList

end Reading

open Reading
open Text (beginsName continuesName)

def isLineEnd (c : Char) : Bool := c == '\n' || c == '\r' || c == '\u2028' || c == '\u2029'

/-- Where comments may be written as in HTML. -/
structure HtmlComments where
  allowed : Bool
  /-- Whether nothing stands before the place where blanks are skipped. -/
  atStart : Bool

/-- The blanks and comments that begin at a place: the place after them, the line there and where it
begins, and whether a line ended on the way. The last part tells that a comment has no end. -/
def skipBlanks (source : Array Char) (html : HtmlComments) :
    (fuel : Nat) → (i line lineStart : Nat) → (crossed : Bool) → Nat × Nat × Nat × Bool × Bool
  | 0, i, line, start, crossed => (i, line, start, crossed, false)
  | fuel + 1, i, line, start, crossed =>
    if i ≥ source.size then (i, line, start, crossed, false)
    else
      let c := source.getD i ' '
      if isLineEnd c then
        let width := if c == '\r' && source.getD (i + 1) ' ' == '\n' then 2 else 1
        skipBlanks source html fuel (i + width) (line + 1) (i + width) true
      else if Str.isSpaceUnit c.toNat then skipBlanks source html fuel (i + 1) line start crossed
      else if (c == '/' && source.getD (i + 1) ' ' == '/')
          || (html.allowed && (source.extract i (i + 4) == #['<', '!', '-', '-']
            || ((crossed || html.atStart) && source.extract i (i + 3) == #['-', '-', '>']))) then
        let rec lineEnd : Nat → Nat → Nat
          | 0, j => j
          | n + 1, j =>
            if j < source.size && !isLineEnd (source.getD j ' ') then lineEnd n (j + 1) else j
        skipBlanks source html fuel (lineEnd source.size i) line start crossed
      else if c == '/' && source.getD (i + 1) ' ' == '*' then
        let rec blockEnd : Nat → Nat → Nat → Nat → Bool → Option (Nat × Nat × Nat × Bool)
          | 0, _, _, _, _ => none
          | n + 1, j, line, start, crossed =>
            if j ≥ source.size then none
            else
              let c := source.getD j ' '
              if c == '*' && source.getD (j + 1) ' ' == '/' then some (j + 2, line, start, crossed)
              else if isLineEnd c then blockEnd n (j + 1) (line + 1) (j + 1) true
              else blockEnd n (j + 1) line start crossed
        match blockEnd source.size (i + 2) line start crossed with
        | some (j, line, start, crossed) => skipBlanks source html fuel j line start crossed
        | none => (i, line, start, crossed, true)
      else (i, line, start, crossed, false)

/-- All signs, the longest first. -/
def signs : List String :=
  [">>>=", "...", "===", "!==", "**=", "<<=", ">>=", ">>>", "&&=", "||=", "??=", "=>", "==", "!=",
    "<=", ">=", "&&", "||", "??", "?.", "++", "--", "+=", "-=", "*=", "/=", "%=", "&=", "|=", "^=",
    "<<", ">>", "**", "\x7b", "\x7d", "(", ")", "[", "]", ";", ",", "<", ">", "+", "-", "*", "/",
    "%", "&", "|", "^", "!", "~", "?", ":", "=", ".", "@", "#"]

/-- The number that hexadecimal digits at a place make, exactly `n` of them. -/
def hexAt (source : Array Char) (i n : Nat) : Option Nat :=
  (List.range n).foldlM (fun v k => do
    let d ← Numeral.digit? (source.getD (i + k) ' ')
    if d < 16 then some (v * 16 + d) else none) 0

/-- The number in braces at a place, and the place after them. -/
def bracedHexAt (source : Array Char) (i : Nat) : Option (Nat × Nat) :=
  let rec go : Nat → Nat → Nat → Nat → Option (Nat × Nat)
    | 0, _, _, _ => none
    | fuel + 1, j, v, k =>
      let c := source.getD j ' '
      if c == '\x7d' then if k == 0 then none else some (v, j + 1)
      else
        match Numeral.digit? c with
        | some d =>
          if d < 16 && v * 16 + d ≤ 0x10FFFF then go fuel (j + 1) (v * 16 + d) (k + 1) else none
        | none => none
  go (source.size + 1) i 0 0

/-- What an escape in a string stands for. -/
inductive Escape where
  | units (us : List UInt16) (next : Nat)
  /-- A line that goes on in the next one. -/
  | continued (next : Nat)
  | malformed

/-- The escape whose character after the backslash is at a place. -/
def escapeAt (source : Array Char) (i : Nat) : Escape :=
  let c := source.getD i ' '
  let one (n : Nat) : Escape := .units [UInt16.ofNat n] (i + 1)
  match c with
  | 'n' => one 10
  | 't' => one 9
  | 'r' => one 13
  | 'b' => one 8
  | 'f' => one 12
  | 'v' => one 11
  | 'x' =>
    match hexAt source (i + 1) 2 with
    | some n => .units [UInt16.ofNat n] (i + 3)
    | none => .malformed
  | 'u' =>
    if source.getD (i + 1) ' ' == '\x7b' then
      match bracedHexAt source (i + 2) with
      | some (n, j) => .units (Str.ofCodePoint n).toUnits.toList j
      | none => .malformed
    else
      match hexAt source (i + 1) 4 with
      | some n => .units [UInt16.ofNat n] (i + 5)
      | none => .malformed
  | c =>
    if c == '0' && !Text.isAsciiDigit (source.getD (i + 1) ' ') then one 0
    else if Text.isAsciiDigit c then .malformed
    else if c == '\r' && source.getD (i + 1) ' ' == '\n' then .continued (i + 2)
    else if isLineEnd c then .continued (i + 1)
    else .units (Str.unitsOf c) (i + 1)

/-- The characters of a name that begins at a place, with escapes resolved, the place after it, and
whether there was an escape. -/
def nameAt (source : Array Char) (i : Nat) : Option (String × Nat × Bool) :=
  let rec go : Nat → Nat → String → Bool → Option (String × Nat × Bool)
    | 0, _, _, _ => none
    | fuel + 1, j, acc, escaped =>
      let c := source.getD j ' '
      let fits (c : Char) : Bool := if acc.isEmpty then beginsName c else continuesName c
      if j < source.size && fits c then go fuel (j + 1) (acc.push c) escaped
      else if c == '\\' && source.getD (j + 1) ' ' == 'u' then
        match escapeAt source (j + 1) with
        | .units us next =>
          match (Str.ofUnits us.toArray).toString? with
          | some s => if s.toList.all fits then go fuel next (acc ++ s) true else none
          | none => none
        | _ => none
      else if acc.isEmpty then none
      else some (acc, j, escaped)
  go (source.size + 2) i "" false

/-- The digits of a base at a place, with underscores between them: their value, how many there
are, and the place after them. -/
def digitsAt (source : Array Char) (base i : Nat) : Nat × Nat × Nat :=
  let rec go : Nat → Nat → Nat → Nat → Nat × Nat × Nat
    | 0, j, v, k => (v, k, j)
    | fuel + 1, j, v, k =>
      let c := source.getD j ' '
      match Numeral.digit? c with
      | some d => if d < base then go fuel (j + 1) (v * base + d) (k + 1) else (v, k, j)
      | none =>
        if c == '_' && k > 0 && ((Numeral.digit? (source.getD (j + 1) ' ')).any (· < base)) then
          go fuel (j + 1) v k
        else (v, k, j)
  go (source.size + 1) i 0 0

/-- The number literal at a place, and the place after it. -/
def numberAt (source : Array Char) (i : Nat) : Option (Token × Nat) :=
  let c := source.getD i ' '
  let d := (source.getD (i + 1) ' ').toLower
  let base : Nat :=
    if c == '0' then (if d == 'x' then 16 else if d == 'o' then 8 else if d == 'b' then 2 else 10)
    else 10
  let done (t : Token) (j : Nat) : Option (Token × Nat) :=
    let e := source.getD j ' '
    if j < source.size && (continuesName e || e == '\\') then none else some (t, j)
  if base != 10 then
    let (v, k, j) := digitsAt source base (i + 2)
    if k == 0 then none
    else if source.getD j ' ' == 'n' then done (.bigint v) (j + 1)
    else done (.number (Numeral.ofRatio v 1)) j
  else
    let (whole, k, j) := digitsAt source 10 i
    if c == '0' && k > 1 then none
    else if k > 0 && source.getD j ' ' == 'n' then done (.bigint whole) (j + 1)
    else
      let (digits, decimals, j) : Nat × Nat × Nat :=
        if source.getD j ' ' == '.' then
          let (f, n, j) := digitsAt source 10 (j + 1)
          (whole * Nat.pow 10 n + f, n, j)
        else (whole, 0, j)
      if (source.getD j ' ').toLower == 'e' then
        let mark := source.getD (j + 1) ' '
        let first := if mark == '-' || mark == '+' then j + 2 else j + 1
        let (e, n, last) := digitsAt source 10 first
        if n == 0 then none
        else
          let e : Int := if mark == '-' then -(min e 100000 : Nat) else (min e 100000 : Nat)
          done (.number (Numeral.ofDecimal digits (e - decimals))) last
      else done (.number (Numeral.ofDecimal digits (-(decimals : Int)))) j

/-- The units of a string literal up to its closing quote, and the place after it. -/
def stringAt (source : Array Char) (quote : Char) :
    (fuel : Nat) → (i line lineStart : Nat) → Array UInt16 → Except String (Str × Nat × Nat × Nat)
  | 0, _, _, _, _ => .error "unexpected end of string"
  | fuel + 1, i, line, start, acc =>
    if i ≥ source.size then .error "unexpected end of string"
    else
      let c := source.getD i ' '
      if c == quote then .ok (Str.ofUnits acc, i + 1, line, start)
      else if c == '\n' || c == '\r' then .error "unexpected end of string"
      else if c == '\\' then
        match escapeAt source (i + 1) with
        | .units us j => stringAt source quote fuel j line start (us.foldl Array.push acc)
        | .continued j => stringAt source quote fuel j (line + 1) j acc
        | .malformed => .error "malformed escape sequence in string literal"
      else stringAt source quote fuel (i + 1) line start ((Str.unitsOf c).foldl Array.push acc)

/-- A piece of a template, up to a substitution or the end. -/
structure TemplatePiece where
  cooked : Option (Array UInt16)
  raw : Array UInt16
  last : Bool
  next : Nat
  line : Nat
  lineStart : Nat

def templateAt (source : Array Char) :
    (fuel : Nat) → (i line lineStart : Nat) → Option (Array UInt16) → Array UInt16 →
      Option TemplatePiece
  | 0, _, _, _, _, _ => none
  | fuel + 1, i, line, start, cooked, raw =>
    if i ≥ source.size then none
    else
      let c := source.getD i ' '
      let add (us : List UInt16) (a : Array UInt16) : Array UInt16 := us.foldl Array.push a
      if c == '`' then some ⟨cooked, raw, true, i + 1, line, start⟩
      else if c == '$' && source.getD (i + 1) ' ' == '\x7b' then
        some ⟨cooked, raw, false, i + 2, line, start⟩
      else if c == '\\' then
        let rawTo (j : Nat) : Array UInt16 :=
          (source.extract i j).foldl (fun a c => add (Str.unitsOf c) a) raw
        match escapeAt source (i + 1) with
        | .units us j => templateAt source fuel j line start (cooked.map (add us)) (rawTo j)
        | .continued j => templateAt source fuel j (line + 1) j cooked (rawTo j)
        | .malformed => templateAt source fuel (i + 2) line start none (rawTo (i + 2))
      else if c == '\r' then
        let j := if source.getD (i + 1) ' ' == '\n' then i + 2 else i + 1
        templateAt source fuel j (line + 1) j (cooked.map (·.push 10)) (raw.push 10)
      else
        let us := Str.unitsOf c
        let (line, start) := if isLineEnd c then (line + 1, i + 1) else (line, start)
        templateAt source fuel (i + 1) line start (cooked.map (add us)) (add us raw)

/-- Scans the piece of a template that begins at the next character. -/
def scanTemplate : Reading Token := do
  let s ← get
  match templateAt s.source (s.source.size + 1) s.next s.line s.lineStart (some #[]) #[] with
  | none => failHere "unexpected end of string"
  | some p =>
    set { s with next := p.next, line := p.line, lineStart := p.lineStart }
    return .template (p.cooked.map Str.ofUnits) (Str.ofUnits p.raw) p.last

def scanToken : Reading Token := do
  let s ← get
  if atEnd s then return .eof
  let c := peekChar s 0
  if c == '"' || c == '\'' then
    match stringAt s.source c (s.source.size + 1) (s.next + 1) s.line s.lineStart #[] with
    | .ok (v, j, line, start) =>
      set { s with next := j, line, lineStart := start }
      return .string v
    | .error e => fail e
  else if c == '`' then
    pass 1
    scanTemplate
  else if Text.isAsciiDigit c || (c == '.' && Text.isAsciiDigit (peekChar s 1)) then
    match numberAt s.source s.next with
    | some (t, j) =>
      set { s with next := j }
      return t
    | none =>
      if c == '0' && Text.isAsciiDigit (peekChar s 1) then
        fail "octal literals are deprecated in strict mode"
      else fail "invalid number literal"
  else if beginsName c || c == '\\' then
    match nameAt s.source s.next with
    | some (x, j, escaped) =>
      set { s with next := j }
      return .word x escaped
    | none => fail "unexpected character"
  else if c == '#' then
    match nameAt s.source (s.next + 1) with
    | some (x, j, _) =>
      set { s with next := j }
      return .hidden x
    | none => fail "unexpected character"
  else
    let fits (w : String) : Bool :=
      let cs := w.toList
      (List.range cs.length).all fun k => peekChar s k == cs.getD k ' '
    match signs.find? fits with
    | some w =>
      if w == "?." && Text.isAsciiDigit (peekChar s 2) then
        pass 1
        return .sign "?"
      else
        pass w.length
        return .sign w
    | none => fail "unexpected character"

/-- Passes the token ahead. -/
def advance : Reading Unit := do
  let s ← get
  let html : HtmlComments := { allowed := !s.isModule, atStart := s.next == 0 }
  let (i, line, start, crossed, unfinished) :=
    skipBlanks s.source html (s.source.size + 1) s.next s.line s.lineStart false
  set { s with
    next := i, line, lineStart := start, lastEnd := s.next,
    start := i, startLine := line, startLineStart := start, afterBreak := crossed }
  if unfinished then fail "unexpected end of comment"
  let t ← scanToken
  modify fun s => { s with token := t }

/-- Takes the slash ahead for the begin of a regular expression. -/
def rescanRegex : Reading Token := do
  let s ← get
  let rec go : Nat → Nat → Bool → Except String Nat
    | 0, _, _ => .error "unexpected end of regexp"
    | fuel + 1, i, inClass =>
      if i ≥ s.source.size then .error "unexpected end of regexp"
      else
        let c := s.source.getD i ' '
        if isLineEnd c then .error "unexpected line terminator in regexp"
        else if c == '/' && !inClass then .ok i
        else if c == '\\' then go fuel (i + 2) inClass
        else go fuel (i + 1) (if c == '[' then true else if c == ']' then false else inClass)
  match go (s.source.size + 1) (s.start + 1) false with
  | .error e => fail e
  | .ok j =>
    let rec flagsEnd : Nat → Nat → Nat
      | 0, k => k
      | n + 1, k =>
        if k < s.source.size && continuesName (s.source.getD k ' ') then flagsEnd n (k + 1) else k
    let k := flagsEnd s.source.size (j + 1)
    let t := Token.regex (Str.ofString (sourceText s.source (s.start + 1) j))
      (Str.ofString (sourceText s.source (j + 1) k))
    set { s with next := k, token := t }
    return t

/-- Takes the brace ahead for the end of a substitution: the template goes on after it. -/
def rescanTemplate : Reading Token := do
  modify fun s => { s with next := s.start + 1, line := s.startLine, lineStart := s.startLineStart }
  let t ← scanTemplate
  modify fun s => { s with token := t }
  return t

/-! ## Looking at the token ahead -/

def tokenText : Reading String := do
  let s ← get
  return sourceText s.source s.start s.next

def isSign (w : String) : Reading Bool := do
  match (← get).token with
  | .sign v => return v == w
  | _ => return false

/-- Whether a word is ahead, written without escapes. -/
def isWord (w : String) : Reading Bool := do
  match (← get).token with
  | .word v escaped => return v == w && !escaped
  | _ => return false

def takeSign (w : String) : Reading Bool := do
  if ← isSign w then
    advance
    return true
  else return false

def takeWord (w : String) : Reading Bool := do
  if ← isWord w then
    advance
    return true
  else return false

/-- Passes a sign, which has to be ahead. -/
def expectSign (w : String) : Reading Unit := do
  if !(← takeSign w) then fail ("expecting '" ++ w ++ "'")

/-- Passes a word, which has to be ahead. -/
def expectWord (w : String) : Reading Unit := do
  if !(← takeWord w) then fail ("expecting '" ++ w ++ "'")

/-- Passes the end of a statement: a semicolon, or a place where it may be left out. -/
def expectSemicolon : Reading Unit := do
  if ← takeSign ";" then return
  let s ← get
  match s.token with
  | .eof => return
  | .sign w => if w == "\x7d" || s.afterBreak then return else fail "expecting ';'"
  | _ => if s.afterBreak then return else fail "expecting ';'"

/-- Fails because the token ahead cannot stand in an expression. -/
def unexpected {α : Type} : Reading α := do
  fail ("unexpected token in expression: '" ++ (← tokenText) ++ "'")

/-- Runs a reading on a copy of the state: what it read is to be read again. -/
def lookAhead {α : Type} (r : Reading α) (otherwise : α) : Reading α := fun s =>
  match r s with
  | .ok a _ => .ok a s
  | .error _ _ => .ok otherwise s

end ScriptSandbox.Language
