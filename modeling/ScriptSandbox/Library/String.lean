import ScriptSandbox.Library.Member
import ScriptSandbox.Text.Case
import ScriptSandbox.Text.Normal

/-!
# Strings and texts

The methods of strings, and the global functions that read numbers from texts or make texts fit for
URLs. Places in strings are counted in units.
-/

namespace ScriptSandbox.Library

open Exec

/-! ## Strings -/

def thisStr (c : NativeCall) : Exec Str := do
  if c.this.isNullish then typeError "null or undefined are forbidden"
  toStr c.this

def heldStr (v : Value) : Exec Str := do
  match v with
  | .str s => return s
  | .obj a =>
    match (← getObj a).kind with
    | .boxed (.str s) => return s
    | _ => typeError "not a string"
  | _ => typeError "not a string"

/-- A value as a place in a string, held between its ends. -/
def placeWithin (v : Value) (length : Nat) : Exec Nat := do
  return min (← toInteger v).toNat length

/-- Whether a value is to be taken for a regular expression. -/
def isRegExp (v : Value) : Exec Bool := do
  match v with
  | .obj a =>
    let m ← getProp a KnownSymbol.match.key
    if !m.isUndefined then return m.truthy
    match (← getObj a).kind with
    | .regExp .. => return true
    | _ => return false
  | _ => return false

/-- Checks that a regular expression is one for all matches. -/
def needGlobal (v : Value) : Exec Unit := do
  if ← isRegExp v then
    let flags ← getNamed v "flags"
    if flags.isNullish then typeError "cannot convert to object"
    if !((← toText flags).contains 'g') then typeError "regexp must have the 'g' flag"

/-- A text to be found, which may be no regular expression. -/
def needleOf (v : Value) : Exec Str := do
  if ← isRegExp v then typeError "regexp not supported"
  toStr v

def standsAt (s needle : Str) (i : Nat) : Bool := s.slice i (i + needle.length) == needle

/-- Something that has been found in a string. -/
structure Found where
  subject : Str
  text : Str
  place : Nat
  /-- The texts of groups, where they have been found. -/
  captures : Array (Option Str) := #[]
  /-- The object with the texts of groups that have names. -/
  named : Option Nat := none

/-- A text for part of a replacement, and how many units after the dollar sign ask for it; absent if
the dollar sign asks for nothing. -/
def Found.expand (f : Found) (us : Array UInt16) (i : Nat) : Exec (Option (Str × Nat)) := do
  let digit (j : Nat) : Option Nat :=
    (us[j]?).bind fun u => if 48 ≤ u && u ≤ 57 then some (u.toNat - 48) else none
  let capture (k : Nat) : Option Str :=
    if 1 ≤ k && k ≤ f.captures.size then some ((f.captures.getD (k - 1) none).getD .empty) else none
  match us[i]?, digit i with
  | some 36, _ => return some (.plain "$" 1, 1)
  | some 38, _ => return some (f.text, 1)
  | some 96, _ => return some (f.subject.slice 0 f.place, 1)
  | some 39, _ => return some (f.subject.slice (f.place + f.text.length) f.subject.length, 1)
  | some 60, _ =>
    match f.named, (List.range (us.size - i)).find? fun k => us[i + k]? == some 62 with
    | some a, some k =>
      let name := Str.ofUnits (us.extract (i + 1) (i + k))
      let v ← getProp a (← toKey (.str name))
      let s ← if v.isUndefined then pure Str.empty else toStr v
      return some (s, k + 1)
    | _, _ => return none
  | _, some d =>
    let two := (digit (i + 1)).bind fun e => (capture (d * 10 + e)).map fun s => (s, 2)
    return two.or ((capture d).map fun s => (s, 1))
  | _, none => return none

/-- What a replacement text stands for, once something has been found in a string. -/
def Found.replaced (f : Found) (text : Str) : Exec Str := do
  let dollars : Bool :=
    match text with
    | .plain t _ => t.contains '$'
    | .units us => us.contains 36
  if !dollars then return text
  let us := text.toUnits
  go us (us.size + 1) 0 0 .empty
where
  /-- Expands the units from a place on; those from another place on have not been taken over. -/
  go (us : Array UInt16) : (fuel : Nat) → (i start : Nat) → Str → Exec Str
    | 0, _, _, acc => return acc
    | fuel + 1, i, start, acc => do
      if i + 1 ≥ us.size then return acc ++ .ofUnits (us.extract start us.size)
      if us[i]? != some 36 then go us fuel (i + 1) start acc
      else
        match ← f.expand us (i + 1) with
        | some (s, k) =>
          go us fuel (i + 1 + k) (i + 1 + k) (acc ++ .ofUnits (us.extract start i) ++ s)
        | none => go us fuel (i + 1) start acc

def replacementFor (s needle : Str) (place : Nat) (replacement : Value) (isFunction : Bool) :
    Exec Str := do
  if isFunction then toStr (← call replacement .undefined #[.str needle, .ofNat place, .str s])
  else ({ subject := s, text := needle, place } : Found).replaced (← toStr replacement)

/-- Replaces what is found, from a place on. -/
def replaceFrom (s needle : Str) (replacement : Value) (isFunction everywhere : Bool) :
    (fuel : Nat) → (copied start : Nat) → Str → Exec Str
  | 0, copied, _, acc => return acc ++ s.slice copied s.length
  | fuel + 1, copied, start, acc => do
    match if start > s.length then none else s.indexOf? needle start with
    | none => return acc ++ s.slice copied s.length
    | some i =>
      let acc := acc ++ s.slice copied i ++ (← replacementFor s needle i replacement isFunction)
      let next := i + needle.length
      if everywhere then
        replaceFrom s needle replacement isFunction everywhere fuel next
          (next + if needle.length == 0 then 1 else 0) acc
      else return acc ++ s.slice next s.length

/-- A method of an argument that takes over, if it has one. -/
def takenOver (v : Value) (s : KnownSymbol) : Exec (Option Value) := do
  match v with
  | .obj a =>
    let f ← getProp a s.key
    if f.isNullish then return none
    return some f
  | _ => return none

def replaceIn (c : NativeCall) (everywhere : Bool) : Exec Value := do
  if c.this.isNullish then typeError "cannot convert to object"
  if everywhere then needGlobal (c.arg 0)
  match ← takenOver (c.arg 0) .replace with
  | some f => call f (c.arg 0) #[c.this, c.arg 1]
  | none =>
    let s ← toStr c.this
    let needle ← toStr (c.arg 0)
    let isFunction ← isCallable (c.arg 1)
    let replacement ← if isFunction then pure (c.arg 1) else Value.str <$> toStr (c.arg 1)
    return .str (← replaceFrom s needle replacement isFunction everywhere (s.length + 2) 0 0 .empty)

def piecesOf (s sep : Str) : List Str :=
  if sep.length == 0 then s.toUnits.toList.map Str.ofUnit
  else
    let rec go : Nat → Nat → List Str
      | 0, start => [s.slice start s.length]
      | fuel + 1, start =>
        match s.indexOf? sep start with
        | none => [s.slice start s.length]
        | some i => s.slice start i :: go fuel (i + sep.length)
    go (s.length + 1) 0

def splitString (c : NativeCall) : Exec Value := do
  if c.this.isNullish then typeError "cannot convert to object"
  match ← takenOver (c.arg 0) .split with
  | some f => call f (c.arg 0) #[c.this, c.arg 1]
  | none =>
    let s ← toStr c.this
    let limit ← if (c.arg 1).isUndefined then pure 4294967295 else toUint32 (c.arg 1)
    let sep ← toStr (c.arg 0)
    if limit == 0 then newArray #[]
    else if (c.arg 0).isUndefined then newArray #[.str s]
    else
      chargeText s.length
      newArray (((piecesOf s sep).take limit).map Value.str).toArray

def padString (c : NativeCall) (atEnd : Bool) : Exec Value := do
  let s ← thisStr c
  let n ← toLength (c.arg 0)
  if n ≤ s.length then return .str s
  let fill ← if (c.arg 1).isUndefined then pure (.plain " " 1) else toStr (c.arg 1)
  if fill.length == 0 then return .str s
  if n > maxStringLength then rangeError "invalid string length"
  roomFor n
  let k := n - s.length
  let padding := (fill.repeated (k / fill.length + 1)).slice 0 k
  return .str (if atEnd then s ++ padding else padding ++ s)

def stringOfPoints (args : Array Value) : Exec Value := do
  let parts ← args.toList.mapM fun v => do
    let x ← toNumber v
    let n := Numeral.truncate x
    if !Numeral.isFinite x || !Numeral.isWhole x || n < 0 || n > 0x10FFFF then
      rangeError "invalid code point"
    return n.toNat
  return .str (.ofCodePoints parts)

/-- The pieces of a template as they were written, with values between them. -/
def rawString (c : NativeCall) : Exec Value := do
  let cooked ← toObject (c.arg 0)
  let raw ← toObject (← getProp cooked (.named "raw"))
  let n ← lengthOf raw
  let s ← forCount (fun (acc : Str) i => do
    let acc := acc ++ (← toStr (← getProp raw (.ofNat i)))
    if i + 1 < n && i + 1 < c.args.size then
      return acc ++ (← toStr (c.arg (i + 1)))
    else return acc)
    n 0 Str.empty
  return .str s

/-- Makes a regular expression from its pattern and its flags. -/
def regexOf (source flags : Str) : Exec Regex.Matcher := do
  match Regex.Matcher.make source flags with
  | .ok r => return r
  | .error e => raise .syntaxError e

/-- Calls a method of a regular expression made from an argument. -/
def throughRegExp (c : NativeCall) (s : KnownSymbol) (flags : String) : Exec Value := do
  if c.this.isNullish then typeError "cannot convert to object"
  if flags == "g" then needGlobal (c.arg 0)
  match ← takenOver (c.arg 0) s with
  | some f => call f (c.arg 0) #[c.this]
  | none =>
    let text ← toStr c.this
    let body ← if (c.arg 0).isUndefined then pure Str.empty else toStr (c.arg 0)
    let r ← newRegExp (← regexOf body (.ofString flags))
    invoke r s.key #[.str text]

def stringFn (f : StringFn) (c : NativeCall) : Exec Value := do
  match f with
  | .construct =>
    let v ←
      if c.args.isEmpty then pure (Value.str .empty)
      else
        match c.arg 0, c.constructs with
        | .sym i, false => pure (.str (← symbolText i))
        | v, _ => Value.str <$> toStr v
    boxed v
  | .fromCharCode =>
    let us ← c.args.mapM fun v => do return UInt16.ofNat (← toUint32 v)
    return .str (.ofUnits us)
  | .fromCodePoint => stringOfPoints c.args
  | .raw => rawString c
  | .at =>
    let s ← thisStr c
    let i ← toInteger (c.arg 0)
    let i := if i < 0 then i + s.length else i
    if i < 0 then return .undefined
    match s.unitAt? i.toNat with
    | some u => return .str (.ofUnit u)
    | none => return .undefined
  | .charCodeAt =>
    let s ← thisStr c
    let i ← toInteger (c.arg 0)
    match if i < 0 then none else s.unitAt? i.toNat with
    | some u => return .int u.toNat
    | none => return .num Numeral.nan
  | .charAt =>
    let s ← thisStr c
    let i ← toInteger (c.arg 0)
    match if i < 0 then none else s.unitAt? i.toNat with
    | some u => return .str (.ofUnit u)
    | none => return .str .empty
  | .concat =>
    let s ← thisStr c
    let mut r := Value.str s
    for v in c.args do
      match r with
      | .str t => r ← concat t (← toStr v)
      | _ => pure ()
    return r
  | .codePointAt =>
    let s ← thisStr c
    let i ← toInteger (c.arg 0)
    match if i < 0 then none else s.codePointAt i.toNat with
    | some (n, _) => return .ofNat n
    | none => return .undefined
  | .indexOf =>
    let s ← thisStr c
    let needle ← toStr (c.arg 0)
    let start ← placeWithin (c.arg 1) s.length
    match s.indexOf? needle start with
    | some i => return .ofNat i
    | none => return .int (-1)
  | .lastIndexOf =>
    let s ← thisStr c
    let needle ← toStr (c.arg 0)
    let x ← toNumber (c.arg 1)
    let start := if x.isNaN then s.length else min (clampFloat x maxSafe).toNat s.length
    match s.lastIndexOf? needle start with
    | some i => return .ofNat i
    | none => return .int (-1)
  | .includes =>
    let s ← thisStr c
    let needle ← needleOf (c.arg 0)
    let start ← placeWithin (c.arg 1) s.length
    return .bool (s.indexOf? needle start).isSome
  | .startsWith =>
    let s ← thisStr c
    let needle ← needleOf (c.arg 0)
    let start ← placeWithin (c.arg 1) s.length
    return .bool (standsAt s needle start)
  | .endsWith =>
    let s ← thisStr c
    let needle ← needleOf (c.arg 0)
    let stop ← if (c.arg 1).isUndefined then pure s.length else placeWithin (c.arg 1) s.length
    return .bool (needle.length ≤ stop && standsAt s needle (stop - needle.length))
  | .match => throughRegExp c .match ""
  | .matchAll => throughRegExp c .matchAll "g"
  | .search => throughRegExp c .search ""
  | .split => splitString c
  | .substring =>
    let s ← thisStr c
    let a ← placeWithin (c.arg 0) s.length
    let b ← if (c.arg 1).isUndefined then pure s.length else placeWithin (c.arg 1) s.length
    return .str (s.slice (min a b) (max a b))
  | .substr =>
    let s ← thisStr c
    let a ← placeFrom (c.arg 0) s.length
    let n ← if (c.arg 1).isUndefined then pure (s.length : Int) else toInteger (c.arg 1)
    return .str (s.slice a (a + n.toNat))
  | .slice =>
    let s ← thisStr c
    let a ← placeFrom (c.arg 0) s.length
    let b ← placeOr (c.arg 1) s.length s.length
    return .str (s.slice a b)
  | .repeat =>
    let s ← thisStr c
    let x ← toNumber (c.arg 0)
    let n := clampFloat x maxSafe
    if n < 0 || n > 2147483647 || x.isInf then rangeError "invalid repeat count"
    if s.length * n.toNat > maxStringLength then raise .internalError "string too long"
    roomFor (s.length * n.toNat)
    return .str (s.repeated n.toNat)
  | .replace => replaceIn c false
  | .replaceAll => replaceIn c true
  | .padEnd => padString c true
  | .padStart => padString c false
  | .trim => do return .str ((← thisStr c).trimmed true true)
  | .trimEnd => do return .str ((← thisStr c).trimmed false true)
  | .trimStart => do return .str ((← thisStr c).trimmed true false)
  | .toString => do return .str (← heldStr c.this)
  | .toLowerCase => do return .str ((← thisStr c).mapText Text.lowerString)
  | .toUpperCase => do return .str ((← thisStr c).mapText Text.upperString)
  | .isWellFormed => do return .bool (← thisStr c).toString?.isSome
  | .toWellFormed => do return .ofString (← thisStr c).toLossy
  | .normalize => do
    let s ← thisStr c
    let name ← if (c.arg 0).isUndefined then pure "NFC" else toText (c.arg 0)
    match Text.NormalForm.ofName? name with
    | some form => return .str (.ofCodePoints (form.apply s.codePoints))
    | none => rangeError "bad normalization form"
  | .localeCompare =>
    let s ← thisStr c
    let t ← toStr (c.arg 0)
    let a := Text.NormalForm.composedForm.apply s.codePoints
    let b := Text.NormalForm.composedForm.apply t.codePoints
    return .int (if a < b then -1 else if a == b then 0 else 1)
  | .iterator =>
    let s ← thisStr c
    newObjectOf .stringIteratorPrototype (.stringIterator s 0) []
  | .iteratorNext =>
    match c.this with
    | .obj a =>
      match (← getObj a).kind with
      | .stringIterator s i =>
        match s.codePointAt i with
        | some (_, n) =>
          setKind a (.stringIterator s (i + n))
          iterResult (.str (s.slice i (i + n))) false
        | none =>
          setKind a (.stringIterator .empty 0)
          iterResult .undefined true
      | _ => typeError "String Iterator object expected"
    | _ => typeError "String Iterator object expected"
where
  /-- A string, or an object that holds it where one is constructed. -/
  boxed (v : Value) : Exec Value := do
    if !c.constructs then return v
    let p ← prototypeFor c.newTarget .stringPrototype
    return .obj (← alloc { proto := some p, kind := .boxed v })

def stringStatics : List Member :=
  [method "fromCharCode" (.string .fromCharCode) 1,
    method "fromCodePoint" (.string .fromCodePoint) 1, method "raw" (.string .raw) 1]

def stringMethods : List Member :=
  [method "at" (.string .at) 1, method "charCodeAt" (.string .charCodeAt) 1,
    method "charAt" (.string .charAt) 1, method "concat" (.string .concat) 1,
    method "codePointAt" (.string .codePointAt) 1,
    method "isWellFormed" (.string .isWellFormed) 0,
    method "toWellFormed" (.string .toWellFormed) 0, method "indexOf" (.string .indexOf) 1,
    method "lastIndexOf" (.string .lastIndexOf) 1, method "includes" (.string .includes) 1,
    method "endsWith" (.string .endsWith) 1, method "startsWith" (.string .startsWith) 1,
    method "match" (.string .match) 1, method "matchAll" (.string .matchAll) 1,
    method "search" (.string .search) 1, method "split" (.string .split) 2,
    method "substring" (.string .substring) 2, method "substr" (.string .substr) 2,
    method "slice" (.string .slice) 2, method "repeat" (.string .repeat) 1,
    method "replace" (.string .replace) 2, method "replaceAll" (.string .replaceAll) 2,
    method "padEnd" (.string .padEnd) 1, method "padStart" (.string .padStart) 1,
    method "trim" (.string .trim) 0, method "trimEnd" (.string .trimEnd) 0,
    method "trimRight" (.string .trimEnd) 0, method "trimStart" (.string .trimStart) 0,
    method "trimLeft" (.string .trimStart) 0, method "toString" (.string .toString) 0,
    method "valueOf" (.string .toString) 0, method "toLowerCase" (.string .toLowerCase) 0,
    method "toUpperCase" (.string .toUpperCase) 0,
    method "toLocaleLowerCase" (.string .toLowerCase) 0,
    method "toLocaleUpperCase" (.string .toUpperCase) 0,
    method "normalize" (.string .normalize) 0, method "localeCompare" (.string .localeCompare) 1,
    symbolMethod .iterator "[Symbol.iterator]" (.string .iterator) 0]

def stringIteratorMethods : List Member :=
  [method "next" (.string .iteratorNext) 0, tag "String Iterator"]

/-! ## Numbers from texts -/

def parseWhole (s : Str) (base : Int) : Value :=
  let cs := Numeral.trimChars s.toLossy
  let (negative, cs) : Bool × List Char :=
    match cs with
    | '-' :: rest => (true, rest)
    | '+' :: rest => (false, rest)
    | cs => (false, cs)
  let (base, cs) : Int × List Char :=
    match cs with
    | '0' :: x :: rest =>
      if (base == 0 || base == 16) && (x == 'x' || x == 'X') then (16, rest) else (base, cs)
    | cs => (base, cs)
  let base := if base == 0 then 10 else base
  if base < 2 || base > 36 then .num Numeral.nan
  else
    let (n, k, _) := Numeral.digitsOf base.toNat cs
    if k == 0 then .num Numeral.nan
    else if n == 0 && negative then .num Numeral.negativeZero
    else .ofInt (if negative then -(n : Int) else n)

def parseNumber (s : Str) : Value :=
  let cs := (s.toLossy.toList).dropWhile fun ch => Str.isSpaceUnit ch.toNat
  match Numeral.signedDecimal? cs with
  | some (x, _) => .ofFloat x
  | none => .num Numeral.nan

/-! ## Texts in URLs -/

/-- Characters that stand for themselves in every part of a URL. -/
def isUnreserved (n : Nat) : Bool :=
  n < 128 && ((Char.ofNat n).isAlphanum || "-_.!~*'()".contains (Char.ofNat n))

/-- Characters that have a meaning of their own in a URL. -/
def isReserved (n : Nat) : Bool := n < 128 && ";/?:@&=+$,#".contains (Char.ofNat n)

def escapedByte (b : UInt8) : String :=
  let n := b.toNat
  String.ofList ['%', (Numeral.digitChar (n / 16)).toUpper, (Numeral.digitChar (n % 16)).toUpper]

/-- Throws a mistake in a text for a URL. -/
def uriError {α : Type} (why : String) : Exec α := raise .uriError why

/-- A text with everything escaped but some characters. -/
def encodeText (s : Str) (keepReserved : Bool) : Exec Value := do
  match s.toString? with
  | none => uriError "invalid character"
  | some t =>
    return .ofString (String.join (t.toList.map fun ch =>
      let n := ch.toNat
      if isUnreserved n || (keepReserved && isReserved n) then String.singleton ch
      else String.join ((String.singleton ch).toUTF8.toList.map escapedByte)))

/-- The value of an escaped byte at the start of a text, and what follows. -/
def escaped? : List Char → Option (Nat × List Char)
  | '%' :: a :: b :: rest =>
    match Numeral.digit? a, Numeral.digit? b with
    | some x, some y => if x < 16 && y < 16 then some (16 * x + y, rest) else none
    | _, _ => none
  | _ => none

/-- How many bytes follow the first one of a character, and what the first one says of it. -/
def leadByte (n : Nat) : Option (Nat × Nat) :=
  if n < 0xC0 then none
  else if n < 0xE0 then some (1, n - 0xC0)
  else if n < 0xF0 then some (2, n - 0xE0)
  else if n < 0xF8 then some (3, n - 0xF0)
  else none

/-- The character that some escaped bytes make, and what follows. -/
def continuation : Nat → Nat → List Char → Option (Nat × List Char)
  | 0, n, cs => some (n, cs)
  | k + 1, n, cs =>
    match escaped? cs with
    | some (b, rest) => if b / 64 == 2 then continuation k (64 * n + b % 64) rest else none
    | none => none

/-- A text with what was escaped put back. -/
def decodeChars (keepReserved : Bool) : (fuel : Nat) → List Char → List Char → Exec (List Char)
  | 0, _, acc => return acc.reverse
  | _, [], acc => return acc.reverse
  | fuel + 1, ch :: rest, acc => do
    if ch != '%' then decodeChars keepReserved fuel rest (ch :: acc)
    else
      match escaped? (ch :: rest) with
      | none => uriError "expecting hex digit"
      | some (b, after) =>
        if b < 128 then
          if keepReserved && isReserved b then
            decodeChars keepReserved fuel after (((ch :: rest).take 3).reverse ++ acc)
          else decodeChars keepReserved fuel after (Char.ofNat b :: acc)
        else
          match leadByte b with
          | none => uriError "malformed UTF-8"
          | some (k, n) =>
            match continuation k n after with
            | none => uriError "malformed UTF-8"
            | some (n, after) =>
              let least : Nat := if k == 1 then 0x80 else if k == 2 then 0x800 else 0x10000
              if n < least || n > 0x10FFFF || (0xD800 ≤ n && n < 0xE000) then
                uriError "malformed UTF-8"
              else decodeChars keepReserved fuel after (Char.ofNat n :: acc)

def decodeText (s : Str) (keepReserved : Bool) : Exec Value := do
  let cs := s.toLossy.toList
  return .ofString (String.ofList (← decodeChars keepReserved (cs.length + 1) cs []))

def escapedUnit (u : UInt16) : String :=
  let hex (n : Nat) : Char := (Numeral.digitChar (n % 16)).toUpper
  let n := u.toNat
  if n < 128 && ((Char.ofNat n).isAlphanum || "@*_+-./".contains (Char.ofNat n)) then
    String.singleton (Char.ofNat n)
  else if n < 256 then String.ofList ['%', hex (n / 16), hex n]
  else String.ofList ['%', 'u', hex (n / 4096), hex (n / 256), hex (n / 16), hex n]

/-- The number that some hexadecimal digits make. -/
def hexUnits (us : List UInt16) : Option Nat :=
  us.foldl (fun acc u =>
    match acc, Numeral.digit? (Char.ofNat u.toNat) with
    | some n, some d => if d < 16 then some (16 * n + d) else none
    | _, _ => none) (some 0)

/-- The units of a text with what the old form has escaped put back. -/
def unescapeUnits : (fuel : Nat) → List UInt16 → List UInt16
  | 0, us => us
  | _, [] => []
  | fuel + 1, u :: us =>
    if u == 37 then
      match us with
      | 117 :: a :: b :: x :: y :: rest =>
        match hexUnits [a, b, x, y] with
        | some n => UInt16.ofNat n :: unescapeUnits fuel rest
        | none => u :: unescapeUnits fuel us
      | a :: b :: rest =>
        match hexUnits [a, b] with
        | some n => UInt16.ofNat n :: unescapeUnits fuel rest
        | none => u :: unescapeUnits fuel us
      | us => u :: us
    else u :: unescapeUnits fuel us

def globalFn (f : GlobalFn) (c : NativeCall) : Exec Value := do
  let first := c.arg 0
  match f with
  | .parseInt =>
    let s ← toStr first
    return parseWhole s (← toInt32 (c.arg 1))
  | .parseFloat => return parseNumber (← toStr first)
  | .isNaN => return .bool (← toNumber first).isNaN
  | .isFinite => return .bool (Numeral.isFinite (← toNumber first))
  | .decodeURI => do decodeText (← toStr first) true
  | .decodeURIComponent => do decodeText (← toStr first) false
  | .encodeURI => do encodeText (← toStr first) true
  | .encodeURIComponent => do encodeText (← toStr first) false
  | .escape => do
    return .ofString (String.join ((← toStr first).toUnits.toList.map escapedUnit))
  | .unescape => do
    let us := (← toStr first).toUnits.toList
    return .str (.ofUnits (unescapeUnits (us.length + 1) us).toArray)
  | .eval => evalIndirect first

end ScriptSandbox.Library
