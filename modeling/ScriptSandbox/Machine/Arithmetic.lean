import ScriptSandbox.Language.Tree
import ScriptSandbox.Machine.Equality

/-!
# Arithmetic

Operators on numbers and on big integers, once their operands have been converted. The remainder
and comparisons between the two kinds of number are exact.
-/

namespace ScriptSandbox

/-- The remainder of a division of doubles, with the sign of the dividend. -/
def Numeral.remainder (x y : Float) : Float :=
  if x.isNaN || y.isNaN || x.isInf || y == 0.0 then Numeral.nan
  else if y.isInf || x == 0.0 then x
  else
    let (m, p) := Numeral.split x
    let (n, q) := Numeral.split y
    let low := min p q
    let r := (m * Nat.pow 2 (p - low).toNat) % (n * Nat.pow 2 (q - low).toNat)
    let body := if low ≥ 0 then Numeral.ofRatio (r * Nat.pow 2 low.toNat) 1
      else Numeral.ofRatio r (Nat.pow 2 (-low).toNat)
    if Numeral.signed x then -body else body

def Numeral.power (x y : Float) : Float :=
  if y.isNaN then Numeral.nan
  else if y.isInf && (x == 1.0 || x == -1.0) then Numeral.nan
  else Float.pow x y

/-- How a big integer compares with a double; there is no answer for what is no number. -/
def Numeral.compareBig (n : Int) (x : Float) : Option Ordering :=
  if x.isNaN then none
  else if x.isInf then some (if x > 0.0 then .lt else .gt)
  else
    let (m, q) := Numeral.split x
    let whole : Int := if Numeral.signed x then -(m : Int) else m
    if q ≥ 0 then some (compare n (whole * (Nat.pow 2 q.toNat : Nat)))
    else some (compare (n * (Nat.pow 2 (-q).toNat : Nat)) whole)

def Numeral.compareFloat (x y : Float) : Option Ordering :=
  if x < y then some .lt else if x > y then some .gt else if x == y then some .eq else none

namespace BigInt

/-- The bits that two whole numbers have in common. -/
def and (a b : Int) : Int :=
  match a, b with
  | .ofNat m, .ofNat n => (m &&& n : Nat)
  | .ofNat m, .negSucc n => (m - (m &&& n) : Nat)
  | .negSucc m, .ofNat n => (n - (n &&& m) : Nat)
  | .negSucc m, .negSucc n => .negSucc (m ||| n)

/-- The bits that a whole number has not. -/
def not (a : Int) : Int := -a - 1

/-- The bits that one of two whole numbers has. -/
def or (a b : Int) : Int := not (and (not a) (not b))

/-- The bits that exactly one of two whole numbers has. -/
def xor (a b : Int) : Int := or a b - and a b

/-- A whole number shifted up, or down if the count is negative. -/
def shift (a count : Int) : Int :=
  if count ≥ 0 then a * (Nat.pow 2 count.toNat : Nat) else a >>> (-count).toNat

end BigInt

namespace Arithmetic

open ScriptSandbox.Language (BinaryOp)

/-- Operators on doubles that give numbers. -/
def floats (op : BinaryOp) (x y : Float) : Value :=
  match op with
  | .add => .ofFloat (x + y)
  | .sub => .ofFloat (x - y)
  | .mul => .ofFloat (x * y)
  | .div => .ofFloat (x / y)
  | .rem => .ofFloat (Numeral.remainder x y)
  | .pow => .ofFloat (Numeral.power x y)
  | .shl =>
    .ofInt (Numeral.wrap32 (Numeral.toInt32 x * (Nat.pow 2 (Numeral.toUint32 y % 32) : Nat)))
  | .sar => .ofInt (Numeral.toInt32 x >>> (Numeral.toUint32 y % 32))
  | .shr => .ofNat (Numeral.toUint32 x >>> (Numeral.toUint32 y % 32))
  | .and => .ofInt (Numeral.signed32 (Numeral.toUint32 x &&& Numeral.toUint32 y))
  | .or => .ofInt (Numeral.signed32 (Numeral.toUint32 x ||| Numeral.toUint32 y))
  | .xor => .ofInt (Numeral.signed32 (Numeral.toUint32 x ^^^ Numeral.toUint32 y))
  | _ => .undefined

/-- The product of two whole numbers of 32 bits. -/
def mulInts (m n : Int) : Value :=
  let p := m * n
  if p == 0 && (m < 0 || n < 0) then .num Numeral.negativeZero else .ofInt p

/-- Operators on whole numbers of 32 bits. -/
def ints (op : BinaryOp) (m n : Int) : Value :=
  match op with
  | .add => .ofInt (m + n)
  | .sub => .ofInt (m - n)
  | .mul => mulInts m n
  | .rem =>
    if n == 0 then .num Numeral.nan
    else
      let r := Int.tmod m n
      if r == 0 && m < 0 then .num Numeral.negativeZero else .int r
  | .and => .int (BigInt.and m n)
  | .or => .int (BigInt.or m n)
  | .xor => .int (BigInt.xor m n)
  | .shl => .int (Numeral.wrap32 (m * (Nat.pow 2 (n % 32).toNat : Nat)))
  | .sar => .int (m >>> (n % 32).toNat)
  | .shr => .ofNat ((m % 4294967296).toNat >>> (n % 32).toNat)
  | op => floats op (Numeral.ofInt m) (Numeral.ofInt n)

/-- How large a shift of a big integer may be. -/
def shiftLimit : Nat := 67108864

/-- Operators on big integers; the message says why there is no result. -/
def bigs (op : BinaryOp) (m n : Int) : Except String Int :=
  match op with
  | .add => .ok (m + n)
  | .sub => .ok (m - n)
  | .mul =>
    if m.natAbs.log2 + n.natAbs.log2 > shiftLimit then .error "out of memory" else .ok (m * n)
  | .div => if n == 0 then .error "division by zero" else .ok (Int.tdiv m n)
  | .rem => if n == 0 then .error "division by zero" else .ok (Int.tmod m n)
  | .pow =>
    if n < 0 then .error "negative exponent"
    else if m.natAbs ≥ 2 && n.toNat * m.natAbs.log2 > shiftLimit then .error "out of memory"
    else .ok (Int.pow m n.toNat)
  | .shl =>
    if m != 0 && n > shiftLimit then .error "out of memory" else .ok (BigInt.shift m n)
  | .sar =>
    if m != 0 && n < -(shiftLimit : Int) then .error "out of memory" else .ok (BigInt.shift m (-n))
  | .and => .ok (BigInt.and m n)
  | .or => .ok (BigInt.or m n)
  | .xor => .ok (BigInt.xor m n)
  | _ => .error "bigint operands are forbidden for >>>"

end Arithmetic
end ScriptSandbox
