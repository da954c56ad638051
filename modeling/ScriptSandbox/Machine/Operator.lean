import ScriptSandbox.Machine.Arithmetic
import ScriptSandbox.Machine.Set

/-!
# Operators

The operators of the guest language on values of any type: which conversions they begin with, and
what they compute.
-/

namespace ScriptSandbox.Exec

open ScriptSandbox.Language (BinaryOp UnaryOp)

def maxStringLength : Nat := 1073741823

def concat (a b : Str) : Exec Value := do
  let n := a.length + b.length
  if n > maxStringLength then raise .internalError "string too long"
  chargeText n
  return .str (a ++ b)

/-- About how many bytes a big integer takes. -/
def bigBytes (n : Int) : Nat := 48 + n.natAbs.log2 / 8

/-- An operator on numbers or big integers. -/
def numericOp (op : BinaryOp) (a b : Value) : Exec Value := do
  let a ← toNumeric a
  let b ← toNumeric b
  match a, b with
  | .big m, .big n =>
    chargeBytes (bigBytes m + bigBytes n)
    match Arithmetic.bigs op m n with
    | .ok r => return .big r
    | .error "out of memory" => outOfMemory
    | .error why => if op == .shr then typeError why else rangeError why
  | .int m, .int n => return Arithmetic.ints op m n
  | a, b =>
    match a.float?, b.float? with
    | some x, some y => return Arithmetic.floats op x y
    | _, _ => typeError "cannot mix BigInt and other types, use explicit conversions"

/-- Addition, or the concatenation of strings. -/
def add (a b : Value) : Exec Value := do
  match a, b with
  | .int m, .int n => return .ofInt (m + n)
  | .str s, .str t => concat s t
  | a, b =>
    let a ← toPrimitive a .default
    let b ← toPrimitive b .default
    match a, b with
    | .str s, b => concat s (← toStr b)
    | a, .str t => do concat (← toStr a) t
    | a, b => numericOp .add a b

def comparePrimitives (a b : Value) : Exec (Option Ordering) := do
  match a, b with
  | .str s, .str t => return some (if s.lt t then .lt else if s == t then .eq else .gt)
  | .big n, .str t =>
    match t.toString?.bind Numeral.bigOfText? with
    | some m => return some (compare n m)
    | none => return none
  | .str s, .big n =>
    match s.toString?.bind Numeral.bigOfText? with
    | some m => return some (compare m n)
    | none => return none
  | a, b =>
    match ← toNumeric a, ← toNumeric b with
    | .int m, .int n => return some (compare m n)
    | .big m, .big n => return some (compare m n)
    | .big m, y => return (y.float?).bind (Numeral.compareBig m)
    | x, .big n => return ((x.float?).bind (Numeral.compareBig n)).map Ordering.swap
    | x, y =>
      match x.float?, y.float? with
      | some x, some y => return Numeral.compareFloat x y
      | _, _ => return none

def compareOp (op : BinaryOp) (a b : Value) : Exec Bool := do
  let a ← toPrimitive a .number
  let b ← toPrimitive b .number
  match ← comparePrimitives a b with
  | none => return false
  | some o =>
    match op with
    | .lt => return o == .lt
    | .le => return o != .gt
    | .gt => return o == .gt
    | _ => return o != .lt

/-- Equality of primitive values of different types. -/
def looseEqPrimitive (a b : Value) : Exec Bool := do
  match a, b with
  | .sym _, _ | _, .sym _ => return Value.strictEq a b
  | .str s, .str t => return s == t
  | a, b => return (← comparePrimitives a b) == some .eq

/-- The equality that converts its operands. -/
def looseEq (a b : Value) : Exec Bool := do
  match a, b with
  | .obj x, .obj y => return x == y
  | .obj _, b =>
    if b.isNullish then return false
    let a ← toPrimitive a .default
    looseEqPrimitive a b
  | a, .obj _ =>
    if a.isNullish then return false
    let b ← toPrimitive b .default
    looseEqPrimitive a b
  | a, b =>
    if a.isNullish || b.isNullish then return a.isNullish && b.isNullish
    else looseEqPrimitive a b

/-- Whether the prototype of a function is among those that a value inherits from. -/
def ordinaryInstance : (fuel : Nat) → (f v : Value) → Exec Bool
  | 0, _, _ => return false
  | fuel + 1, f, v => do
    match f with
    | .obj a =>
      let o ← getObj a
      if !o.isCallable then return false
      match o.kind with
      | .bound target _ _ => ordinaryInstance fuel (.obj target) v
      | _ =>
        match v with
        | .obj x =>
          match ← getProp a prototypeKey with
          | .obj p => chain p chainLimit x
          | _ => typeError "operand 'prototype' property is not an object"
        | _ => return false
    | _ => return false
where
  /-- Whether an object inherits from another. -/
  chain (p : Nat) : Nat → Nat → Exec Bool
    | 0, _ => return false
    | fuel + 1, x => do
      match ← prototypeOf x with
      | none => return false
      | some q => if q == p then return true else chain p fuel q

def instanceOf (v f : Value) : Exec Bool := do
  match f with
  | .obj _ =>
    match ← getMethod f KnownSymbol.hasInstance.key with
    | some h => return (← call h f #[v]).truthy
    | none =>
      if !(← isCallable f) then typeError "invalid 'instanceof' right operand"
      ordinaryInstance chainLimit f v
  | _ => typeError "invalid 'instanceof' right operand"

def hasIn (k v : Value) : Exec Bool := do
  match v with
  | .obj a => do hasProperty a (← toKey k)
  | _ => typeError "invalid 'in' operand"

/-- An operator with two operands. -/
def binary (op : BinaryOp) (a b : Value) : Exec Value := do
  match op with
  | .add => add a b
  | .lt | .le | .gt | .ge => return .bool (← compareOp op a b)
  | .strictEq => return .bool (Value.strictEq a b)
  | .strictNe => return .bool (!Value.strictEq a b)
  | .eq => return .bool (← looseEq a b)
  | .ne => return .bool (!(← looseEq a b))
  | .instanceOf => return .bool (← instanceOf a b)
  | .in => return .bool (← hasIn a b)
  | op => numericOp op a b

/-- An operator with one operand. -/
def unary (op : UnaryOp) (a : Value) : Exec Value := do
  match op with
  | .not => return .bool (!a.truthy)
  | .plus => toNumberValue a
  | .neg =>
    match ← toNumeric a with
    | .int 0 => return .num Numeral.negativeZero
    | .int n => return .ofInt (-n)
    | .num x => return .ofFloat (-x)
    | .big n => return .big (-n)
    | _ => return .undefined
  | .bitNot =>
    match ← toNumeric a with
    | .int n => return .int (-n - 1)
    | .num x => return .int (-(Numeral.toInt32 x) - 1)
    | .big n => return .big (-n - 1)
    | _ => return .undefined
  | .typeof => return .ofString (← typeName a)
  | .void => return .undefined
  | .delete => return .bool true

/-- A number or big integer with one more or less. -/
def increment (by_ : Int) (a : Value) : Exec Value := do
  match a with
  | .int n => return .ofInt (n + by_)
  | .num x => return .ofFloat (x + Numeral.ofInt by_)
  | .big n => return .big (n + by_)
  | a => numericOp .add (← toNumeric a) (.int by_)

end ScriptSandbox.Exec
