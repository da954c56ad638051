import ScriptSandbox.Machine.Get

/-!
# Conversions

How values of one type are taken for values of another. An object is first asked for a primitive
value, by its own methods, so that every conversion may run guest code.
-/

namespace ScriptSandbox.Exec

/-- What a conversion of an object to a primitive value is for. -/
inductive Hint where
  | default
  | number
  | string
  deriving BEq

def Hint.name : Hint → String
  | .default => "default"
  | .number => "number"
  | .string => "string"

def valueOfKey : Key := .name (.plain "valueOf" 7)

def toStringKey : Key := .name (.plain "toString" 8)

def firstPrimitive (v : Value) : List Key → Exec Value
  | [] => typeError "toPrimitive"
  | k :: ks => do
    let f ← getValue v k
    if ← isCallable f then
      let r ← call f v #[]
      if !r.isObject then return r
    firstPrimitive v ks

def toPrimitive (v : Value) (hint : Hint) : Exec Value := do
  match v with
  | .obj _ =>
    let f ← getValue v KnownSymbol.toPrimitive.key
    if f.isNullish then
      firstPrimitive v
        (if hint == .string then [toStringKey, valueOfKey] else [valueOfKey, toStringKey])
    else
      if !(← isCallable f) then typeError "not a function"
      let r ← call f v #[.ofString hint.name]
      if r.isObject then typeError "toPrimitive"
      return r
  | v => return v

def numberOfStr (s : Str) : Float :=
  match s.toString? with
  | some t => Numeral.ofText t
  | none => Numeral.nan

def toNumeric (v : Value) : Exec Value := do
  match v with
  | .int _ | .num _ | .big _ => return v
  | v =>
    match ← toPrimitive v .number with
    | .undefined | .hole => return .num Numeral.nan
    | .null => return .int 0
    | .bool b => return .int (if b then 1 else 0)
    | .str s => return .ofFloat (numberOfStr s)
    | .sym _ => typeError "cannot convert symbol to number"
    | .obj _ => typeError "toPrimitive"
    | v => return v

def toNumber (v : Value) : Exec Float := do
  match ← toNumeric v with
  | .int n => return Numeral.ofInt n
  | .num x => return x
  | .big _ => typeError "cannot convert bigint to number"
  | _ => return Numeral.nan

def toNumberValue (v : Value) : Exec Value := do
  match v with
  | .int _ | .num _ => return v
  | v => return .ofFloat (← toNumber v)

/-- A double as a whole number; what is too large is held at the given bound. -/
def clampFloat (x : Float) (bound : Nat) : Int :=
  if x.isNaN then 0
  else if x ≥ Float.ofNat bound then bound
  else if x ≤ -(Float.ofNat bound) then -(bound : Int)
  else Numeral.truncate x

/-- The greatest number of which every smaller whole number is exact. -/
def maxSafe : Nat := 9007199254740991

/-- A value as a whole number, at most as large as numbers are exact. -/
def toInteger (v : Value) : Exec Int := do
  match v with
  | .int n => return n
  | v => return clampFloat (← toNumber v) maxSafe

def toLength (v : Value) : Exec Nat := do return (← toInteger v).toNat

def toInt32 (v : Value) : Exec Int := do
  match v with
  | .int n => return n
  | v => return Numeral.toInt32 (← toNumber v)

def toUint32 (v : Value) : Exec Nat := do
  match v with
  | .int n => return (n % 4294967296).toNat
  | v => return Numeral.toUint32 (← toNumber v)

/-- A place counted from the start, or from the end if it is negative. -/
def placeFrom (v : Value) (length : Nat) : Exec Nat := do
  let n ← toInteger v
  return if n < 0 then (n + length).toNat else min n.toNat length

/-- A place, or another one if there is no value. -/
def placeOr (v : Value) (length default : Nat) : Exec Nat := do
  match v with
  | .undefined => return default
  | v => placeFrom v length

def primitiveStr : Value → Str
  | .undefined | .hole => .plain "undefined" 9
  | .null => .plain "null" 4
  | .bool true => .plain "true" 4
  | .bool false => .plain "false" 5
  | .int n => Str.ofString (toString n)
  | .num x => Str.ofString (Numeral.text x)
  | .str s => s
  | .big n => Str.ofString (toString n)
  | .sym _ | .obj _ => Str.empty

def toStr (v : Value) : Exec Str := do
  match v with
  | .str s => return s
  | v =>
    match ← toPrimitive v .string with
    | .sym _ => typeError "cannot convert symbol to string"
    | v => return primitiveStr v

/-- A value as text; surrogates without a partner are replaced. -/
def toText (v : Value) : Exec String := do return (← toStr v).toLossy

/-- The key for a number, if it is an index. -/
def intKey (n : Int) : Key :=
  if n < 0 then .named (toString n) else .index n.toNat

def toKey (v : Value) : Exec Key := do
  match v with
  | .int n => return intKey n
  | .str s => return .ofStr s
  | .sym i => return .symbol i
  | v =>
    match ← toPrimitive v .string with
    | .sym i => return .symbol i
    | v => return .ofStr (primitiveStr v)

def toObject (v : Value) : Exec Nat := do
  match v with
  | .obj a => return a
  | v =>
    match primitivePrototype v with
    | some p => alloc { proto := some p.address, kind := .boxed v }
    | none => typeError "cannot convert to object"

def needObject (v : Value) : Exec Nat := do
  match v with
  | .obj a => return a
  | _ => typeError "not an object"

def lengthOf (a : Nat) : Exec Nat := do
  let o ← getObj a
  match o.kind with
  | .array _ length => return length
  | _ => toLength (← getProp a lengthKey)

def toBig (v : Value) : Exec Int := do
  match ← toPrimitive v .number with
  | .big n => return n
  | .bool b => return if b then 1 else 0
  | .str s =>
    match s.toString?.bind Numeral.bigOfText? with
    | some n => return n
    | none => raise .syntaxError "invalid bigint literal"
  | _ => typeError "cannot convert to bigint"

def symbolText (i : Nat) : Exec Str := do
  let m ← get
  let d := ((m.symbols[i]?).join).getD Str.empty
  return Str.ofString "Symbol(" ++ d ++ Str.ofString ")"

/-- The text of a symbol's description in brackets, or of a name, as a function's name. -/
def nameOfKey (k : Key) : Exec Str := do
  match k with
  | .symbol i | .hidden i =>
    match ((← get).symbols[i]?).join with
    | some d => return Str.ofString "[" ++ d ++ Str.ofString "]"
    | none => return Str.empty
  | k => return (k.str?).getD Str.empty

/-- Whether an object is an array; proxies are looked through. -/
def isArray : (fuel : Nat) → Value → Exec Bool
  | 0, _ => return false
  | fuel + 1, v => do
    match v with
    | .obj a =>
      match (← getObj a).kind with
      | .array .. | .sparse .. => return true
      | .proxy (some target) _ _ _ => isArray fuel (.obj target)
      | .proxy none _ _ _ => typeError "revoked proxy"
      | _ => return false
    | _ => return false

def valueIsArray (v : Value) : Exec Bool := isArray chainLimit v

def typeName (v : Value) : Exec String := do
  match v with
  | .undefined | .hole => return "undefined"
  | .null => return "object"
  | .bool _ => return "boolean"
  | .int _ | .num _ => return "number"
  | .str _ => return "string"
  | .sym _ => return "symbol"
  | .big _ => return "bigint"
  | .obj a => return if (← getObj a).isCallable then "function" else "object"

end ScriptSandbox.Exec
