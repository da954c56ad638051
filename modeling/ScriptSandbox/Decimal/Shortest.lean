/-!
# Decimal digits of a binary fraction

A finite double is `m · 2^q` with `m` a natural number. Its neighbours in the format bound the
interval of reals that round to it, ends included exactly when `m` is even. A decimal
`d · 10^k` in that interval reads back as the same double.

Two rules choose the digits, and both try the precisions 1, 2, … 17 in turn:

- `nearestDigits`: the first precision at which the decimal nearest to the value reads back;
- `shortestDigits`: the first precision at which some decimal reads back, and of two such
  decimals the nearer.

They differ only where the interval is lopsided, at powers of two. All arithmetic is exact, on
natural numbers: a value is held as a numerator over a power of two.
-/

namespace ScriptSandbox.Decimal

/-- A decimal `digits · 10^exponent`. -/
structure Scaled where
  digits : Nat
  exponent : Int
  deriving Repr, DecidableEq, Inhabited

/-- A positive double with the interval that rounds to it: `value`, `low` and `high` are
numerators over `den`. -/
structure Interval where
  value : Nat
  low : Nat
  high : Nat
  den : Nat
  /-- Whether the two ends belong to the interval. -/
  closed : Bool
  deriving Repr, Inhabited

/-- The interval of `m · 2^q`; `narrow` says that the neighbour below is half as far away as the
neighbour above, as it is for a power of two. -/
def Interval.of (m : Nat) (q : Int) (narrow : Bool) : Interval :=
  let below := if narrow then 1 else 2
  let even := m % 2 == 0
  if q ≥ 2 then
    let unit := Nat.pow 2 (q - 2).toNat
    ⟨4 * m * unit, (4 * m - below) * unit, (4 * m + 2) * unit, 1, even⟩
  else
    ⟨4 * m, 4 * m - below, 4 * m + 2, Nat.pow 2 (2 - q).toNat, even⟩

def Interval.contains (i : Interval) (d : Nat) (k : Int) : Bool :=
  let (n, den) :=
    if k ≥ 0 then (d * Nat.pow 10 k.toNat * i.den, 1) else (d * i.den, Nat.pow 10 (-k).toNat)
  if i.closed then i.low * den ≤ n && n ≤ i.high * den
  else i.low * den < n && n < i.high * den

/-- The value as a fraction of `10^k`: numerator and denominator. -/
def Interval.scaled (i : Interval) (k : Int) : Nat × Nat :=
  if k ≥ 0 then (i.value, i.den * Nat.pow 10 k.toNat) else (i.value * Nat.pow 10 (-k).toNat, i.den)

def Interval.reaches (i : Interval) (e : Int) : Bool :=
  let (n, den) := i.scaled e
  den ≤ n

/-- The exponent `e` with `10^e ≤ value < 10^(e+1)`, found from the sizes in bits and corrected by
at most one step either way. -/
def Interval.magnitude (i : Interval) : Int :=
  let bits : Int := (i.value.log2 : Int) - (i.den.log2 : Int)
  let guess := (bits * 30103).fdiv 100000
  if i.reaches (guess + 1) then guess + 1
  else if i.reaches guess then guess
  else guess - 1

/-- The decimal with `n` digits nearest to the value, an exact half going to the even neighbour. -/
def Interval.nearest (i : Interval) (e : Int) (n : Nat) : Scaled :=
  let k := e - n + 1
  let (num, den) := i.scaled k
  let d := num / den
  let r := 2 * (num % den)
  ⟨if r < den || (r == den && d % 2 == 0) then d else d + 1, k⟩

/-- The nearer of the two neighbours on the grid of `n` digits that lie in the interval. -/
def Interval.within? (i : Interval) (e : Int) (n : Nat) : Option Scaled :=
  let k := e - n + 1
  let (num, den) := i.scaled k
  let d := num / den
  let below := i.contains d k
  let above := i.contains (d + 1) k
  if below && above then some (i.nearest e n)
  else if below then some ⟨d, k⟩
  else if above then some ⟨d + 1, k⟩
  else none

def firstPrecision (f : Nat → Option Scaled) : (fuel n : Nat) → Option Scaled
  | 0, _ => none
  | fuel + 1, n => (f n).or (firstPrecision f fuel (n + 1))

/-- Moves up to `fuel` trailing zeros of `d` into the exponent `k`. -/
def stripZeros : (fuel d : Nat) → (k : Int) → Scaled
  | 0, d, k => ⟨d, k⟩
  | fuel + 1, d, k =>
    if d != 0 && d % 10 == 0 then stripZeros fuel (d / 10) (k + 1) else ⟨d, k⟩

/-- Moves trailing zeros of the digits into the exponent; no precision has more than twenty. -/
def Scaled.stripped (s : Scaled) : Scaled := stripZeros 20 s.digits s.exponent

/-- Digits of the interval's value: nearest at the first precision where that reads back. -/
def nearestDigits (i : Interval) : Scaled :=
  let e := i.magnitude
  let at? (n : Nat) : Option Scaled :=
    let s := i.nearest e n
    if i.contains s.digits s.exponent then some s else none
  ((firstPrecision at? 17 1).getD (i.nearest e 17)).stripped

/-- Digits of the interval's value: as few as read back. -/
def shortestDigits (i : Interval) : Scaled :=
  let e := i.magnitude
  ((firstPrecision (i.within? e) 17 1).getD (i.nearest e 17)).stripped

/-- The parts of a double: sign, and for a positive finite one its interval. -/
inductive Parts where
  | zero
  | finite (i : Interval)
  | infinite
  | nan

/-- Takes a double apart by its bits. -/
def parts (x : Float) : Bool × Parts :=
  let bits := x.toBits.toNat
  let negative := bits ≥ Nat.pow 2 63
  let body := bits % Nat.pow 2 63
  let expo : Nat := body / Nat.pow 2 52
  let frac : Nat := body % Nat.pow 2 52
  let p :=
    if expo == 2047 then (if frac == 0 then .infinite else .nan)
    else if expo == 0 then
      if frac == 0 then .zero else .finite (Interval.of frac (-1074) false)
    else .finite (Interval.of (Nat.pow 2 52 + frac) ((expo : Int) - 1075) (frac == 0 && expo > 1))
  (negative, p)

/-- The decimal digits of a number, without leading zeros. -/
def digitChars (n : Nat) : List Char := Nat.toDigits 10 n

def zeros (n : Nat) : List Char := List.replicate n '0'

end ScriptSandbox.Decimal
