import ScriptSandbox.Library.Member

/-!
# Numbers and other primitive values

What guest code can do with numbers, Booleans, symbols and big integers, and the functions of
`Math`.
-/

namespace ScriptSandbox.Library

open Exec

/-! ## Numbers -/

def thisNumber (v : Value) : Exec Value := do
  match v with
  | .int _ | .num _ => return v
  | .obj a =>
    match (← getObj a).kind with
    | .boxed (.int n) => return .int n
    | .boxed (.num x) => return .num x
    | _ => typeError "not a number"
  | _ => typeError "not a number"

/-- A number as a double. -/
def floatOf (v : Value) : Float := (v.float?).getD Numeral.nan

def digitCount (v : Value) (least greatest : Int) : Exec Nat := do
  match ← toInteger v with
  | n =>
    if n < least || n > greatest then rangeError "invalid number of digits"
    return n.toNat

/-- A primitive value, or an object that holds it where one is constructed. -/
def boxedOr (c : NativeCall) (proto : Intrinsic) (v : Value) : Exec Value := do
  if !c.constructs then return v
  let p ← prototypeFor c.newTarget proto
  return .obj (← alloc { proto := some p, kind := .boxed v })

def numberText (v : Value) (base : Value) : Exec Value := do
  let b ← if base.isUndefined then pure 10 else toInteger base
  if b < 2 || b > 36 then rangeError "radix must be between 2 and 36"
  match v with
  | .int n => return .ofString (Numeral.intInBase b.toNat n)
  | v =>
    let x := floatOf v
    if b == 10 || !Numeral.isFinite x then return .ofString (Numeral.text x)
    return .ofString (Numeral.inBase x b.toNat)

def isWholeNumber : Value → Bool
  | .int _ => true
  | .num x => Numeral.isFinite x && Numeral.isWhole x
  | _ => false

/-- The greatest whole number below which every one is a double of its own. -/
def maxSafeNumber : Float := 9007199254740991.0

/-- Functions of numbers. -/
def numberFn (f : NumberFn) (c : NativeCall) : Exec Value := do
  let first := c.arg 0
  match f with
  | .construct =>
    let v ←
      if c.args.isEmpty then pure (.int 0)
      else
        match ← toNumeric first with
        | .big n => pure (.ofFloat (Numeral.ofInt n))
        | v => pure v
    boxedOr c .numberPrototype v
  | .isNaN => return .bool (match first with
    | .num x => x.isNaN
    | _ => false)
  | .isFinite => return .bool (match first with
    | .int _ => true
    | .num x => Numeral.isFinite x
    | _ => false)
  | .isInteger => return .bool (isWholeNumber first)
  | .isSafeInteger => return .bool (isWholeNumber first && (floatOf first).abs ≤ maxSafeNumber)
  | .toExponential =>
    let x := floatOf (← thisNumber c.this)
    let n ← toInteger first
    if !Numeral.isFinite x then return .ofString (Numeral.text x)
    if first.isUndefined then return .ofString (Numeral.exponential x none)
    if n < 0 || n > 100 then rangeError "invalid number of digits"
    return .ofString (Numeral.exponential x (some n.toNat))
  | .toFixed =>
    let x := floatOf (← thisNumber c.this)
    let n ← digitCount first 0 100
    if !Numeral.isFinite x || x.abs ≥ 1e21 then return .ofString (Numeral.text x)
    return .ofString (Numeral.fixed x n)
  | .toPrecision =>
    let x := floatOf (← thisNumber c.this)
    if first.isUndefined then return .ofString (Numeral.text x)
    let n ← toInteger first
    if !Numeral.isFinite x then return .ofString (Numeral.text x)
    if n < 1 || n > 100 then rangeError "invalid number of digits"
    return .ofString (Numeral.precise x n.toNat)
  | .toString => do numberText (← thisNumber c.this) first
  | .toLocaleString => do numberText (← thisNumber c.this) .undefined
  | .valueOf => thisNumber c.this

def numberStatics : List Member :=
  [method "isNaN" (.number .isNaN) 1, method "isFinite" (.number .isFinite) 1,
    method "isInteger" (.number .isInteger) 1, method "isSafeInteger" (.number .isSafeInteger) 1,
    hidden "parseInt" (.obj Intrinsic.parseInt.address),
    hidden "parseFloat" (.obj Intrinsic.parseFloat.address),
    constant "MAX_VALUE" (.num 1.7976931348623157e308), constant "MIN_VALUE" (.num 5e-324),
    constant "NaN" (.num Numeral.nan), constant "NEGATIVE_INFINITY" (.num (-Numeral.infinity)),
    constant "POSITIVE_INFINITY" (.num Numeral.infinity),
    constant "EPSILON" (.num 2.220446049250313e-16),
    constant "MAX_SAFE_INTEGER" (.num maxSafeNumber),
    constant "MIN_SAFE_INTEGER" (.num (-maxSafeNumber))]

def numberMethods : List Member :=
  [method "toExponential" (.number .toExponential) 1, method "toFixed" (.number .toFixed) 1,
    method "toPrecision" (.number .toPrecision) 1, method "toString" (.number .toString) 1,
    method "toLocaleString" (.number .toLocaleString) 0, method "valueOf" (.number .valueOf) 0]

/-! ## Booleans, symbols and big integers -/

def thisBool (v : Value) : Exec Bool := do
  match v with
  | .bool b => return b
  | .obj a =>
    match (← getObj a).kind with
    | .boxed (.bool b) => return b
    | _ => typeError "not a boolean"
  | _ => typeError "not a boolean"

def thisSymbol (v : Value) : Exec Nat := do
  match v with
  | .sym i => return i
  | .obj a =>
    match (← getObj a).kind with
    | .boxed (.sym i) => return i
    | _ => typeError "not a symbol"
  | _ => typeError "not a symbol"

def thisBig (v : Value) : Exec Int := do
  match v with
  | .big n => return n
  | .obj a =>
    match (← getObj a).kind with
    | .boxed (.big n) => return n
    | _ => typeError "not a bigint"
  | _ => typeError "not a bigint"

/-- A value as a big integer, where guest code asks for one. -/
def convertToBig (v : Value) : Exec Int := do
  match ← toPrimitive v .number with
  | .int n => return n
  | .num x =>
    if !Numeral.isFinite x then rangeError "cannot convert NaN or Infinity to bigint"
    if !Numeral.isWhole x then rangeError "cannot convert to bigint: not an integer"
    return Numeral.truncate x
  | v => toBig v

def sharedSymbol (name : Str) : Exec Nat := do
  match (← get).registry.find? fun e => e.1 == name with
  | some (_, i) => return i
  | none =>
    let i ← newSymbol (some name)
    modify fun m => { m with registry := (name, i) :: m.registry }
    return i

def bitCount (v : Value) : Exec Nat := do
  let n ← toInteger v
  if n < 0 || n > 9007199254740991 then rangeError "invalid array index"
  return n.toNat

/-- A whole number of some bits, with a sign or without. -/
def wrapBits (bits : Nat) (n : Int) (signed : Bool) : Int :=
  if bits > n.natAbs.log2 + 2 && (signed || n ≥ 0) then n
  else
    let r := n % (Nat.pow 2 bits : Nat)
    if signed && bits > 0 && r ≥ (Nat.pow 2 (bits - 1) : Nat) then r - (Nat.pow 2 bits : Nat) else r

/-- Functions of Booleans, symbols and big integers. -/
def primitiveFn (f : PrimitiveFn) (c : NativeCall) : Exec Value := do
  let first := c.arg 0
  match f with
  | .booleanConstruct => boxedOr c .booleanPrototype (.bool first.truthy)
  | .booleanToString => return .ofString (if ← thisBool c.this then "true" else "false")
  | .booleanValueOf => return .bool (← thisBool c.this)
  | .symbolConstruct =>
    if c.constructs then typeError "not a constructor"
    let d ← if first.isUndefined then pure none else some <$> toStr first
    return .sym (← newSymbol d)
  | .symbolFor => return .sym (← sharedSymbol (← toStr first))
  | .symbolKeyFor =>
    match first with
    | .sym i =>
      match (← get).registry.find? fun e => e.2 == i with
      | some (name, _) => return .str name
      | none => return .undefined
    | _ => typeError "not a symbol"
  | .symbolToString => return .str (← symbolText (← thisSymbol c.this))
  | .symbolValueOf | .symbolToPrimitive => return .sym (← thisSymbol c.this)
  | .symbolDescription =>
    let i ← thisSymbol c.this
    match ((← get).symbols[i]?).join with
    | some d => return .str d
    | none => return .undefined
  | .bigConstruct =>
    if c.constructs then typeError "not a constructor"
    return .big (← convertToBig first)
  | .bigAsIntN =>
    let bits ← bitCount first
    return .big (wrapBits bits (← toBig (c.arg 1)) true)
  | .bigAsUintN =>
    let bits ← bitCount first
    return .big (wrapBits bits (← toBig (c.arg 1)) false)
  | .bigToString =>
    let n ← thisBig c.this
    let b ← if first.isUndefined then pure 10 else toInteger first
    if b < 2 || b > 36 then rangeError "radix must be between 2 and 36"
    return .ofString (if b == 10 then toString n else Numeral.intInBase b.toNat n)
  | .bigValueOf => return .big (← thisBig c.this)

def booleanMethods : List Member :=
  [method "toString" (.primitive .booleanToString) 0,
    method "valueOf" (.primitive .booleanValueOf) 0]

/-- The symbols that the language knows, by their names. -/
def knownSymbols : List (String × KnownSymbol) :=
  [("toPrimitive", .toPrimitive), ("iterator", .iterator), ("match", .match),
    ("matchAll", .matchAll), ("replace", .replace), ("search", .search), ("split", .split),
    ("toStringTag", .toStringTag), ("isConcatSpreadable", .isConcatSpreadable),
    ("hasInstance", .hasInstance), ("species", .species), ("unscopables", .unscopables),
    ("asyncIterator", .asyncIterator)]

def symbolStatics : List Member :=
  [method "for" (.primitive .symbolFor) 1, method "keyFor" (.primitive .symbolKeyFor) 1]
    ++ knownSymbols.map fun (name, s) => constant name (.sym s.id)

def symbolMethods : List Member :=
  [method "toString" (.primitive .symbolToString) 0, method "valueOf" (.primitive .symbolValueOf) 0,
    ⟨KnownSymbol.toPrimitive.key, "[Symbol.toPrimitive]",
      .function (.primitive .symbolToPrimitive) 1 none⟩,
    tag "Symbol", getter "description" (.primitive .symbolDescription)]

/-- The functions of `BigInt`. -/
def bigStatics : List Member :=
  [method "asIntN" (.primitive .bigAsIntN) 2, method "asUintN" (.primitive .bigAsUintN) 2]

def bigMethods : List Member :=
  [method "toString" (.primitive .bigToString) 0, method "valueOf" (.primitive .bigValueOf) 0,
    tag "BigInt"]

/-! ## Mathematics -/

/-- The exponential less one, also where it is small. -/
def expLessOne (x : Float) : Float :=
  let u := x.exp
  if u == 1.0 then x
  else if u - 1.0 == -1.0 then -1.0
  else if !Numeral.isFinite u then u
  else (u - 1.0) * x / u.log

/-- The logarithm of one more, also where that is near one. -/
def logOneMore (x : Float) : Float :=
  let u := 1.0 + x
  if u == 1.0 then x else if !Numeral.isFinite u then u.log else u.log * x / (u - 1.0)

/-- The nearest whole number, halves going up. -/
def roundUp (x : Float) : Float :=
  if !Numeral.isFinite x || x.abs ≥ 4503599627370496.0 || x == 0.0 then x
  else if x < 0.0 && x ≥ -0.5 then Numeral.negativeZero
  else
    let f := x.floor
    if x - f ≥ 0.5 then f + 1.0 else f

def wholePart (x : Float) : Float := if x < 0.0 then x.ceil else x.floor

/-- The greater of two numbers; a zero without a sign is greater than one with it. -/
def maxFloat (x y : Float) : Float :=
  if x.isNaN || y.isNaN then Numeral.nan
  else if x == 0.0 && y == 0.0 then (if Numeral.signed x then y else x)
  else if x < y then y else x

/-- The lesser of two numbers. -/
def minFloat (x y : Float) : Float :=
  if x.isNaN || y.isNaN then Numeral.nan
  else if x == 0.0 && y == 0.0 then (if Numeral.signed x then x else y)
  else if y < x then y else x

/-- Combines all arguments, each as a number. -/
def foldFloats (f : Float → Float → Float) (start : Float) (args : Array Value) : Exec Value := do
  let xs ← args.mapM toNumber
  return .ofFloat (xs.foldl f start)

/-- How many zeros come before the first one among 32 bits. -/
def leadingZeros (n : Nat) : Nat := if n == 0 then 32 else 31 - n.log2

def nextRandom (s : UInt64) : UInt64 :=
  let s := s ^^^ (s >>> 12)
  let s := s ^^^ (s <<< 25)
  s ^^^ (s >>> 27)

def randomFloat : Exec Value := do
  let s := nextRandom (← get).random
  modify fun m => { m with random := s }
  return .num (((s * 0x2545F4914F6CDD1D) >>> 11).toFloat / 9007199254740992.0)

def mathFn (f : MathFn) (c : NativeCall) : Exec Value := do
  let one (g : Float → Float) : Exec Value := do return .ofFloat (g (← toNumber (c.arg 0)))
  match f with
  | .abs => one Float.abs
  | .acos => one Float.acos
  | .acosh => one Float.acosh
  | .asin => one Float.asin
  | .asinh => one Float.asinh
  | .atan => one Float.atan
  | .atan2 =>
    let y ← toNumber (c.arg 0)
    return .ofFloat (Float.atan2 y (← toNumber (c.arg 1)))
  | .atanh => one Float.atanh
  | .cbrt => one Float.cbrt
  | .ceil => one Float.ceil
  | .clz32 => return .ofNat (leadingZeros (← toUint32 (c.arg 0)))
  | .cos => one Float.cos
  | .cosh => one Float.cosh
  | .exp => one Float.exp
  | .expm1 => one expLessOne
  | .floor => one Float.floor
  | .fround => one fun x => x.toFloat32.toFloat
  | .hypot =>
    let xs ← c.args.mapM toNumber
    if xs.any fun x => x.isInf then return .num Numeral.infinity
    return .ofFloat (xs.foldl (fun s x => s + x * x) 0.0).sqrt
  | .imul =>
    let a ← toInt32 (c.arg 0)
    return .int (Numeral.wrap32 (a * (← toInt32 (c.arg 1))))
  | .log => one Float.log
  | .log10 => one Float.log10
  | .log1p => one logOneMore
  | .log2 => one Float.log2
  | .max => foldFloats maxFloat (-Numeral.infinity) c.args
  | .min => foldFloats minFloat Numeral.infinity c.args
  | .pow =>
    let x ← toNumber (c.arg 0)
    return .ofFloat (Numeral.power x (← toNumber (c.arg 1)))
  | .random => randomFloat
  | .round => one roundUp
  | .sign => one fun x => if x.isNaN || x == 0.0 then x else if x < 0.0 then -1.0 else 1.0
  | .sin => one Float.sin
  | .sinh => one Float.sinh
  | .sqrt => one Float.sqrt
  | .tan => one Float.tan
  | .tanh => one Float.tanh
  | .trunc => one wholePart

/-- The functions of `Math` with their names and counts of parameters. -/
def mathFunctions : List (String × MathFn × Nat) :=
  [("min", .min, 2), ("max", .max, 2), ("abs", .abs, 1), ("floor", .floor, 1), ("ceil", .ceil, 1),
    ("round", .round, 1), ("sqrt", .sqrt, 1), ("acos", .acos, 1), ("asin", .asin, 1),
    ("atan", .atan, 1), ("atan2", .atan2, 2), ("cos", .cos, 1), ("exp", .exp, 1), ("log", .log, 1),
    ("pow", .pow, 2), ("sin", .sin, 1), ("tan", .tan, 1), ("trunc", .trunc, 1), ("sign", .sign, 1),
    ("cosh", .cosh, 1), ("sinh", .sinh, 1), ("tanh", .tanh, 1), ("acosh", .acosh, 1),
    ("asinh", .asinh, 1), ("atanh", .atanh, 1), ("expm1", .expm1, 1), ("log1p", .log1p, 1),
    ("log2", .log2, 1), ("log10", .log10, 1), ("cbrt", .cbrt, 1), ("hypot", .hypot, 2),
    ("random", .random, 0), ("fround", .fround, 1), ("imul", .imul, 2), ("clz32", .clz32, 1)]

def mathMembers : List Member :=
  (mathFunctions.map fun (name, f, n) => method name (.math f) n)
    ++ [tag "Math", constant "E" (.num 2.718281828459045), constant "LN10" (.num 2.302585092994046),
      constant "LN2" (.num 0.6931471805599453), constant "LOG2E" (.num 1.4426950408889634),
      constant "LOG10E" (.num 0.4342944819032518), constant "PI" (.num 3.141592653589793),
      constant "SQRT1_2" (.num 0.7071067811865476), constant "SQRT2" (.num 1.4142135623730951)]

end ScriptSandbox.Library
