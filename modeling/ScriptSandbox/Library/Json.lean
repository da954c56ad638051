import ScriptSandbox.Library.Array
import ScriptSandbox.Library.String

/-!
# JSON for guest code

How guest code reads values from JSON and writes them. Reading works on the units of a string, so
that a surrogate without a partner passes through; a mistake is thrown with its place in the text.
-/

namespace ScriptSandbox.Library

open Exec

namespace JsonText

/-! ## Reading -/

/-- A token of JSON text. -/
inductive Token where
  | mark (u : UInt16)
  | string (s : Str)
  | number (v : Value)
  | word (s : String)
  | stop
  deriving Inhabited

/-- Where a reader is: the place of the next unit, and the line it is on. -/
structure Place where
  next : Nat
  line : Nat := 1
  /-- The place at which the line begins. -/
  lineStart : Nat := 0
  deriving Inhabited

/-- A token with where it begins. -/
structure Read where
  token : Token
  start : Nat
  deriving Inhabited

/-- Throws a mistake in the text. -/
def fault {α : Type} (p : Place) (message : String) : Exec α :=
  throwFault "<input>" { message, line := p.line, column := p.next - p.lineStart, tooDeep := false }

/-- A unit as a character; only those of ASCII matter here. -/
def charOf (u : UInt16) : Char := Char.ofNat (if u.toNat < 128 then u.toNat else 0xFFFD)

def textOf (us : Array UInt16) (start stop : Nat) : String :=
  (Str.ofUnits (us.extract start stop)).toLossy

/-- The rest of a string, after its opening quote. -/
def readString (us : Array UInt16) (p : Place) :
    (fuel : Nat) → Nat → Array UInt16 → Exec (Str × Nat)
  | 0, _, _ => fault p "unexpected end of string"
  | fuel + 1, i, acc => do
    match us[i]? with
    | none => fault { p with next := i } "unexpected end of string"
    | some u =>
      if u == 34 then return (.ofUnits acc, i + 1)
      else if u < 32 then fault { p with next := i } "invalid character in a JSON string"
      else if u == 92 then
        match (us[i + 1]?).map charOf with
        | some 'b' => readString us p fuel (i + 2) (acc.push 8)
        | some 'f' => readString us p fuel (i + 2) (acc.push 12)
        | some 'n' => readString us p fuel (i + 2) (acc.push 10)
        | some 'r' => readString us p fuel (i + 2) (acc.push 13)
        | some 't' => readString us p fuel (i + 2) (acc.push 9)
        | some '"' => readString us p fuel (i + 2) (acc.push 34)
        | some '\\' => readString us p fuel (i + 2) (acc.push 92)
        | some '/' => readString us p fuel (i + 2) (acc.push 47)
        | some 'u' =>
          match hexUnits (us.extract (i + 2) (i + 6)).toList with
          | some n =>
            if i + 6 ≤ us.size then readString us p fuel (i + 6) (acc.push (UInt16.ofNat n))
            else fault { p with next := i } "malformed escape sequence in string literal"
          | none => fault { p with next := i } "malformed escape sequence in string literal"
        | _ => fault { p with next := i } "malformed escape sequence in string literal"
      else readString us p fuel (i + 1) (acc.push u)

/-- The place of the first unit, from one on, that a test fails for. -/
def skipWhile (us : Array UInt16) (test : Char → Bool) : (fuel : Nat) → Nat → Nat
  | 0, i => i
  | fuel + 1, i =>
    match us[i]? with
    | some u => if test (charOf u) then skipWhile us test fuel (i + 1) else i
    | none => i

def nextToken (us : Array UInt16) : (fuel : Nat) → Place → Exec (Read × Place)
  | 0, p => return (⟨.stop, p.next⟩, p)
  | fuel + 1, p => do
    let i := p.next
    match us[i]? with
    | none => return (⟨.stop, i⟩, p)
    | some u =>
      match charOf u with
      | ' ' | '\t' | '\r' => nextToken us fuel { p with next := i + 1 }
      | '\n' => nextToken us fuel ⟨i + 1, p.line + 1, i + 1⟩
      | '"' =>
        let (s, j) ← readString us p (us.size + 1) (i + 1) #[]
        return (⟨.string s, i⟩, { p with next := j })
      | c =>
        if u ≥ 128 then fault p "unexpected character"
        else if c.isAlpha || c == '_' || c == '$' then
          let j := skipWhile us (fun c => c.isAlphanum || c == '_' || c == '$') us.size i
          return (⟨.word (textOf us i j), i⟩, { p with next := j })
        else
          let digitAt (j : Nat) : Bool := ((us[j]?).map charOf).any Char.isDigit
          let isNumber :=
            (c == '0' && !digitAt (i + 1)) || (c == '-' && digitAt (i + 1))
              || ('1' ≤ c && c ≤ '9')
          if isNumber then
            let j := skipWhile us
              (fun c => c.isDigit || c == '.' || c == 'e' || c == 'E' || c == '+' || c == '-')
              us.size (i + 1)
            let text := (textOf us i j).toList
            match Numeral.signedDecimal? text with
            | some (x, rest) =>
              return (⟨.number (.ofFloat x), i⟩, { p with next := j - rest.length })
            | none => return (⟨.mark u, i⟩, { p with next := i + 1 })
          else return (⟨.mark u, i⟩, { p with next := i + 1 })

/-- Fails because a token has no place where it stands. -/
def unexpected {α : Type} (us : Array UInt16) (r : Read) (p : Place) : Exec α := do
  match r.token with
  | .stop => fault p "unexpected end of input"
  | _ => fault p ("unexpected token: '" ++ textOf us r.start p.next ++ "'")

/-- The bytes of stack that a value inside another takes. -/
def levelBytes : Nat := 160

/-- How deep values can be nested, whatever stack there is. -/
def depthLimit : Nat := 8000

/-- Goes to the next token. -/
def advance (us : Array UInt16) (p : Place) : Exec (Read × Place) := nextToken us (us.size + 1) p

/-- Goes beyond a mark that has to come next. -/
def expect (us : Array UInt16) (u : UInt16) (r : Read) (p : Place) : Exec (Read × Place) := do
  match r.token with
  | .mark v => if u == v then advance us p else missing
  | _ => missing
where
  /-- Fails because the mark is not there. -/
  missing : Exec (Read × Place) :=
    fault p ("expecting '" ++ String.singleton (charOf u) ++ "'")

/-- What reads a value that begins with a token, up to the token after it. -/
abbrev ValueReader := Read → Place → Exec (Value × Read × Place)

/-- The elements of an array, up to the token after them. -/
def readItems (us : Array UInt16) (value : ValueReader) :
    (fuel : Nat) → Array Value → Read → Place →
    Exec (Array Value × Read × Place)
  | 0, acc, r, p => return (acc, r, p)
  | fuel + 1, acc, r, p => do
    let (v, r, p) ← value r p
    charge 16
    let acc := acc.push v
    match r.token with
    | .mark 44 =>
      let (r, p) ← advance us p
      readItems us value fuel acc r p
    | _ => return (acc, r, p)

/-- The members of an object, up to the token after them. -/
def readMembers (us : Array UInt16) (value : ValueReader) (o : Nat) : (fuel : Nat) → Read → Place →
    Exec (Read × Place)
  | 0, r, p => return (r, p)
  | fuel + 1, r, p => do
    match r.token with
    | .string s =>
      let (r, p) ← advance us p
      let (r, p) ← expect us 58 r p
      let (v, r, p) ← value r p
      createData o (.ofStr s) v
      match r.token with
      | .mark 44 =>
        let (r, p) ← advance us p
        readMembers us value o fuel r p
      | _ => return (r, p)
    | _ => fault p "expecting property name"

def readValue (us : Array UInt16) : (depth : Nat) → ValueReader
  | 0, _, _ => stackOverflow
  | depth + 1, r, p => withStack levelBytes do
    match r.token with
    | .mark 123 =>
      let (r, p) ← advance us p
      let o ← newObject
      let (r, p) ← match r.token with
        | .mark 125 => pure (r, p)
        | _ => readMembers us (readValue us depth) ((o.address?).getD 0) (us.size + 1) r p
      let (r, p) ← expect us 125 r p
      return (o, r, p)
    | .mark 91 =>
      let (r, p) ← advance us p
      let (items, r, p) ← match r.token with
        | .mark 93 => pure (#[], r, p)
        | _ => readItems us (readValue us depth) (us.size + 1) #[] r p
      let (r, p) ← expect us 93 r p
      return (← newArray items, r, p)
    | .string s => after p (.str s)
    | .number v => after p v
    | .word "true" => after p (.bool true)
    | .word "false" => after p (.bool false)
    | .word "null" => after p .null
    | _ => unexpected us r p
where
  /-- A value, up to the token after it. -/
  after (p : Place) (v : Value) : Exec (Value × Read × Place) := do
    let (r, p) ← advance us p
    return (v, r, p)

def readWhole (s : Str) : Exec Value := do
  chargeText s.length
  let us := s.toUnits
  let (r, p) ← advance us { next := 0 }
  let (v, r, p) ← readValue us depthLimit r p
  match r.token with
  | .stop => return v
  | _ => fault p "unexpected data at the end"

/-- Lets a function revise a value, from the inside out. -/
def revise (f : Value) : (depth : Nat) → (holder : Nat) → Key → Exec Value
  | 0, _, _ => stackOverflow
  | depth + 1, holder, k => withStack levelBytes do
    let v ← getProp holder k
    match v with
    | .obj a =>
      let keys ←
        if ← valueIsArray v then pure ((List.range (← lengthOf a)).map Key.ofNat)
        else
          (← ownKeys a).filterM fun k => do
            if k.isSymbol then return false
            return ((← getOwn a k).map Property.enumerable).getD false
      for k in keys do
        match ← revise f depth a k with
        | .undefined => let _ ← deleteProp a k
        | w => let _ ← defineOwn a k (.ofProperty (.plain w))
    | _ => pure ()
    call f (.obj holder) #[k.value, v]

/-! ## Writing -/

/-- How a value is to be written. -/
structure Style where
  replacer : Option Value
  /-- The properties to be written, if not all. -/
  only : Option (List Key)
  gap : Str

/-- A unit in a string, escaped where that is needed. -/
def quotedUnit (lone : Bool) (u : UInt16) : List UInt16 :=
  let hex (n : Nat) : UInt16 := UInt16.ofNat (Numeral.digitChar (n % 16)).toNat
  let n := u.toNat
  match n with
  | 8 => [92, 98]
  | 9 => [92, 116]
  | 10 => [92, 110]
  | 12 => [92, 102]
  | 13 => [92, 114]
  | 34 => [92, 34]
  | 92 => [92, 92]
  | n =>
    if n < 32 || lone then [92, 117, hex (n / 4096), hex (n / 256), hex (n / 16), hex n] else [u]

/-- The units of a string, escaped where that is needed; a surrogate without a partner is. -/
def quotedUnits : List UInt16 → List UInt16
  | [] => []
  | [u] => quotedUnit (Str.isHigh u || Str.isLow u) u
  | u :: v :: rest =>
    if Str.isHigh u && Str.isLow v then u :: v :: quotedUnits rest
    else quotedUnit (Str.isHigh u || Str.isLow u) u ++ quotedUnits (v :: rest)

/-- Whether a character stands for itself in a string. -/
def isPlain (c : Char) : Bool := c.toNat ≥ 32 && c != '"' && c != '\\'

def quoted (s : Str) : Str :=
  let inner : Str :=
    match s with
    | .plain t _ =>
      if t.all isPlain then s else .ofUnits (quotedUnits s.toUnits.toList).toArray
    | _ => .ofUnits (quotedUnits s.toUnits.toList).toArray
  Str.ofString "\"" ++ inner ++ Str.ofString "\""

/-- A value as it is written, after its own method and the replacer had their say. -/
def prepared (st : Style) (holder : Value) (k : Key) (v : Value) : Exec Value := do
  let own ← match v with
    | .obj _ | .big _ => do
      let f ← getNamed v "toJSON"
      if ← isCallable f then call f v #[k.value] else pure v
    | v => pure v
  match st.replacer with
  | some f => call f holder #[k.value, own]
  | none => return own

/-- A primitive value that an object holds, or the object. -/
def unboxed (v : Value) : Exec Value := do
  match v with
  | .obj a =>
    match (← getObj a).kind with
    | .boxed (.str _) => return .str (← toStr v)
    | .boxed (.int _) | .boxed (.num _) => toNumberValue v
    | .boxed (.bool b) => return .bool b
    | .boxed (.big n) => return .big n
    | _ => return v
  | v => return v

def bracketed (st : Style) (opening closing : String) (pieces : List Str) (indent inner : Str) :
    Str :=
  let o := Str.ofString opening
  let c := Str.ofString closing
  if pieces.isEmpty then o ++ c
  else if st.gap.length == 0 then o ++ Str.join (Str.ofString ",") pieces ++ c
  else
    let newline := Str.ofString "\n"
    o ++ newline ++ inner ++ Str.join (Str.ofString "," ++ newline ++ inner) pieces ++ newline
      ++ indent
      ++ c

/-- A value as JSON; there is none for what cannot be written. -/
def written (st : Style) :
    (depth : Nat) → (outer : List Nat) → (indent : Str) → (holder : Value) → Key →
    Value → Exec (Option Str)
  | 0, _, _, _, _, _ => stackOverflow
  | depth + 1, outer, indent, holder, k, v => withStack levelBytes do
    match ← unboxed (← prepared st holder k v) with
    | .null => return some (Str.ofString "null")
    | .bool b => return some (Str.ofString (if b then "true" else "false"))
    | .int n => return some (Str.ofString (toString n))
    | .num x =>
      return some (Str.ofString (if Numeral.isFinite x then Numeral.text x else "null"))
    | .str s => return some (quoted s)
    | .big _ => typeError "bigint are forbidden in JSON.stringify"
    | .obj a =>
      if (← getObj a).isCallable then return none
      if outer.contains a then typeError "circular reference"
      let inner := indent ++ st.gap
      let this := Value.obj a
      if ← valueIsArray this then
        let n ← lengthOf a
        let pieces ← forCount (fun (acc : Array Str) i => do
          let x ← element a i
          let piece ← written st depth (a :: outer) inner this (.ofNat i) x
          let piece := piece.getD (Str.ofString "null")
          charge piece.length
          return acc.push piece) n 0 #[]
        return some (bracketed st "[" "]" pieces.toList indent inner)
      else
        let keys ← match st.only with
          | some ks => pure ks
          | none =>
            (← ownKeys a).filterM fun k => do
              if k.isSymbol then return false
              return ((← getOwn a k).map Property.enumerable).getD false
        let pieces ← keys.filterMapM fun k => do
          let x ← getProp a k
          match ← written st depth (a :: outer) inner this k x with
          | some piece =>
            charge piece.length
            let colon := Str.ofString (if st.gap.length == 0 then ":" else ": ")
            return some (quoted ((k.str?).getD .empty) ++ colon ++ piece)
          | none => return none
        return some (bracketed st "\x7b" "\x7d" pieces indent inner)
    | _ => return none

/-- What an array says are the only properties to be written. -/
def onlyKeys (a : Nat) : Exec (List Key) := do
  let n ← lengthOf a
  let keys ← forCount (fun (acc : List Key) i => do
    let named ← match ← element a i with
      | .str s => pure (some (Key.ofStr s))
      | .int m => pure (some (Key.ofString (toString m)))
      | .num x => pure (some (Key.ofString (Numeral.text x)))
      | .obj x =>
        match (← getObj x).kind with
        | .boxed (.str _) | .boxed (.int _) | .boxed (.num _) =>
          pure (some (Key.ofStr (← toStr (.obj x))))
        | _ => pure none
      | _ => pure none
    match named with
    | some k => return if acc.contains k then acc else acc ++ [k]
    | none => return acc) n 0 []
  return keys

/-- What one level is indented by. -/
def gapOf (v : Value) : Exec Str := do
  match ← unboxed v with
  | .int n => return (Str.ofString " ").repeated (min n.toNat 10)
  | .num x => return (Str.ofString " ").repeated (min (clampFloat x 10).toNat 10)
  | .str s => return s.slice 0 10
  | _ => return .empty

/-- A value as JSON, or undefined. -/
def stringify (v replacer space : Value) : Exec Value := do
  let gap ← gapOf space
  let isFunction ← isCallable replacer
  let only ← match replacer with
    | .obj a => if !isFunction && (← valueIsArray replacer) then some <$> onlyKeys a else pure none
    | _ => pure none
  let st : Style := { replacer := if isFunction then some replacer else none, only, gap }
  let holder ← newObject
  createData ((holder.address?).getD 0) (.named "") v
  match ← written st depthLimit [] .empty holder (.named "") v with
  | some s => return .str s
  | none => return .undefined

/-- The value of JSON text, revised by a function if there is one. -/
def parse (text reviver : Value) : Exec Value := do
  let v ← readWhole (← toStr text)
  if ← isCallable reviver then
    let holder ← newObject
    let h := (holder.address?).getD 0
    createData h (.named "") v
    revise reviver depthLimit h (.named "")
  else return v

end JsonText

def jsonMembers : List Member :=
  [method "parse" .jsonParse 2, method "stringify" .jsonStringify 3, tag "JSON"]

end ScriptSandbox.Library
