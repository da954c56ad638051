import ScriptSandbox.Decimal.Shortest
import ScriptSandbox.Machine.Str

/-!
# Numbers and their text

Guest numbers are doubles. Everything here is exact: a double is taken apart into a sign, a
natural mantissa and a power of two, and put together again by rounding a fraction to the nearest
double, an exact half going to the even neighbour.
-/

namespace ScriptSandbox.Numeral

/-- The double that is not a number. -/
def nan : Float := 0.0 / 0.0

def infinity : Float := 1.0 / 0.0

def negativeZero : Float := -0.0

/-- Whether a double is neither infinite nor no number. -/
def isFinite (x : Float) : Bool := !(x.isNaN || x.isInf)

def signed (x : Float) : Bool := x.toBits ≥ 0x8000000000000000

/-- The mantissa and the power of two of a finite double, without its sign. -/
def split (x : Float) : Nat × Int :=
  let body := x.toBits.toNat % Nat.pow 2 63
  let expo : Nat := body / Nat.pow 2 52
  let frac : Nat := body % Nat.pow 2 52
  if expo == 0 then (frac, -1074) else (Nat.pow 2 52 + frac, (expo : Int) - 1075)

/-- The whole part of a finite double. -/
def truncate (x : Float) : Int :=
  let (m, q) := split x
  let n : Nat := if q ≥ 0 then m * Nat.pow 2 q.toNat else m / Nat.pow 2 (-q).toNat
  if signed x then -(n : Int) else n

/-- Whether a finite double is a whole number. -/
def isWhole (x : Float) : Bool :=
  let (m, q) := split x
  q ≥ 0 || m % Nat.pow 2 (-q).toNat == 0

/-- The double nearest to a positive fraction. -/
def ofRatio (num den : Nat) : Float :=
  if num == 0 then 0.0
  else
    let guess : Int := (num.log2 : Int) - (den.log2 : Int)
    let atLeast (e : Int) : Bool :=
      if e ≥ 0 then den * Nat.pow 2 e.toNat ≤ num else den ≤ num * Nat.pow 2 (-e).toNat
    let e := if atLeast guess then guess else guess - 1
    let q := max (e - 52) (-1074)
    if q > 1000 then infinity
    else
      let (n, d) :=
        if q ≥ 0 then (num, den * Nat.pow 2 q.toNat) else (num * Nat.pow 2 (-q).toNat, den)
      let m := n / d
      let r := 2 * (n % d)
      let m := if r > d || (r == d && m % 2 == 1) then m + 1 else m
      let (m, q) := if m ≥ Nat.pow 2 53 then (m / 2, q + 1) else (m, q)
      if m < Nat.pow 2 52 then Float.ofBits (UInt64.ofNat m)
      else
        let expo := (q + 1075).toNat
        if expo ≥ 2047 then infinity
        else Float.ofBits (UInt64.ofNat (expo * Nat.pow 2 52 + (m - Nat.pow 2 52)))

def ofDecimal (digits : Nat) (exponent : Int) : Float :=
  if digits == 0 then 0.0
  else if exponent > 400 then infinity
  else if exponent < -400 - (digits.log2 : Int) then 0.0
  else if exponent ≥ 0 then ofRatio (digits * Nat.pow 10 exponent.toNat) 1
  else ofRatio digits (Nat.pow 10 (-exponent).toNat)

/-- The double nearest to a whole number. -/
def ofInt (n : Int) : Float :=
  if n.natAbs < Nat.pow 2 53 then (if n < 0 then -(Float.ofNat n.natAbs) else Float.ofNat n.natAbs)
  else if n < 0 then -(ofRatio n.natAbs 1)
  else ofRatio n.natAbs 1

/-- A number modulo `2^32`, as a natural number; what is not finite is zero. -/
def toUint32 (x : Float) : Nat := if isFinite x then (truncate x % 4294967296).toNat else 0

/-- The signed number of 32 bits with the given bits. -/
def signed32 (n : Nat) : Int := if n ≥ 2147483648 then (n : Int) - 4294967296 else n

/-- A whole number modulo `2^32`, as a signed number. -/
def wrap32 (n : Int) : Int := signed32 (n % 4294967296).toNat

/-- A number as a signed number of 32 bits. -/
def toInt32 (x : Float) : Int := signed32 (toUint32 x)

/-! ## Writing -/

def exponentText (e : Int) : String := (if e < 0 then "e-" else "e+") ++ toString e.natAbs

/-- Digits `d₁d₂…` with the point after the first, if there are more. -/
def pointed : List Char → String
  | [] => ""
  | [d] => String.singleton d
  | d :: ds => String.ofList (d :: '.' :: ds)

/-- A number as guest code shows it. -/
def text (x : Float) : String :=
  let (negative, p) := Decimal.parts x
  match p with
  | .zero => "0"
  | .nan => "NaN"
  | .infinite => if negative then "-Infinity" else "Infinity"
  | .finite i =>
    let s := Decimal.nearestDigits i
    let ds := Decimal.digitChars s.digits
    let k : Int := ds.length
    let n : Int := s.exponent + k
    let body : String :=
      if k ≤ n && n ≤ 21 then String.ofList (ds ++ Decimal.zeros (n - k).toNat)
      else if 0 < n && n ≤ 21 then
        String.ofList (ds.take n.toNat ++ '.' :: ds.drop n.toNat)
      else if -6 < n && n ≤ 0 then
        "0." ++ String.ofList (Decimal.zeros (-n).toNat ++ ds)
      else pointed ds ++ exponentText (n - 1)
    if negative then "-" ++ body else body

/-- The nearest whole number to a fraction, halves going up. -/
def roundHalfUp (num den : Nat) : Nat := (2 * num + den) / (2 * den)

/-- A finite double without its sign, as a fraction. -/
def ratio (x : Float) : Nat × Nat :=
  let (m, q) := split x
  if q ≥ 0 then (m * Nat.pow 2 q.toNat, 1) else (m, Nat.pow 2 (-q).toNat)

def fixed (x : Float) (decimals : Nat) : String :=
  let (num, den) := ratio x
  let n := roundHalfUp (num * Nat.pow 10 decimals) den
  let ds := Decimal.digitChars n
  let ds := Decimal.zeros (decimals + 1 - ds.length) ++ ds
  let whole := ds.take (ds.length - decimals)
  let frac := ds.drop (ds.length - decimals)
  let body := String.ofList (if decimals == 0 then whole else whole ++ '.' :: frac)
  if x < 0.0 then "-" ++ body else body

/-- The digits of a positive finite number rounded to a precision, and the exponent of the first. -/
def rounded (x : Float) (precision : Nat) : List Char × Int :=
  let (num, den) := ratio x
  let ratioAt (k : Int) : Nat :=
    if k ≥ 0 then roundHalfUp num (den * Nat.pow 10 k.toNat)
    else roundHalfUp (num * Nat.pow 10 (-k).toNat) den
  match (Decimal.parts x).2 with
  | .finite i =>
    let e := i.magnitude
    let n := ratioAt (e - precision + 1)
    if n ≥ Nat.pow 10 precision then (Decimal.digitChars (n / 10), e + 1)
    else (Decimal.digitChars n, e)
  | _ => (Decimal.zeros precision, 0)

/-- A finite number with an exponent and a count of decimals, or as many as needed. -/
def exponential (x : Float) (decimals : Option Nat) : String :=
  let (ds, e) :=
    match decimals, (Decimal.parts x).2 with
    | some d, _ => rounded x (d + 1)
    | none, .finite i =>
      let s := Decimal.nearestDigits i
      let ds := Decimal.digitChars s.digits
      (ds, s.exponent + ds.length - 1)
    | none, _ => (['0'], 0)
  (if x < 0.0 then "-" else "") ++ pointed ds ++ exponentText e

/-- A finite number with a count of significant digits. -/
def precise (x : Float) (precision : Nat) : String :=
  let (ds, e) := rounded x precision
  let body : String :=
    if e < -6 || e ≥ precision then pointed ds ++ exponentText e
    else if e + 1 ≥ precision then String.ofList ds
    else if e ≥ 0 then String.ofList (ds.take (e.toNat + 1) ++ '.' :: ds.drop (e.toNat + 1))
    else "0." ++ String.ofList (Decimal.zeros (-e - 1).toNat ++ ds)
  if x < 0.0 then "-" ++ body else body

def digitChar (d : Nat) : Char := if d < 10 then Char.ofNat (48 + d) else Char.ofNat (87 + d)

def natInBase (base n : Nat) : String :=
  let rec go : Nat → Nat → List Char → List Char
    | 0, _, acc => acc
    | fuel + 1, n, acc =>
      let acc := digitChar (n % base) :: acc
      if n / base == 0 then acc else go fuel (n / base) acc
  String.ofList (go (n.log2 + 1) n [])

def intInBase (base : Nat) (n : Int) : String :=
  (if n < 0 then "-" else "") ++ natInBase base n.natAbs

/-- A finite number in another base; a fraction is cut where it reads back. -/
def inBase (x : Float) (base : Nat) : String :=
  let (num, den) := ratio x
  let whole := natInBase base (num / den)
  let rec digits : Nat → Nat → Nat → List Char
    | 0, _, _ => []
    | fuel + 1, rest, err =>
      if rest == 0 then []
      else
        let d := rest * base / den
        let rest' := rest * base % den
        let err' := err * base
        if 2 * rest' < err' then [digitChar d]
        else if 2 * (den - rest') < err' then [digitChar (d + 1)]
        else digitChar d :: digits fuel rest' err'
  let frac := num % den
  let ulp := if (split x).2 ≥ 0 then 0 else 1
  let body := if frac == 0 then whole else whole ++ "." ++ String.ofList (digits 1100 frac ulp)
  if x < 0.0 then "-" ++ body else body

/-! ## Reading -/

def digit? (c : Char) : Option Nat :=
  if '0' ≤ c && c ≤ '9' then some (c.toNat - 48)
  else if 'a' ≤ c && c ≤ 'z' then some (c.toNat - 87)
  else if 'A' ≤ c && c ≤ 'Z' then some (c.toNat - 55)
  else none

/-- The number that the digits of a base at the start of a text make, how many there are, and what
follows. -/
def digitsOf (base : Nat) (cs : List Char) : Nat × Nat × List Char :=
  let rec go (n count : Nat) : List Char → Nat × Nat × List Char
    | [] => (n, count, [])
    | c :: cs =>
      match digit? c with
      | some d => if d < base then go (n * base + d) (count + 1) cs else (n, count, c :: cs)
      | none => (n, count, c :: cs)
  go 0 0 cs

/-- The decimal number at the start of a text, and what follows. -/
def decimal? (cs : List Char) : Option (Float × List Char) :=
  let (whole, wholeCount, rest) := digitsOf 10 cs
  let (digits, count, fracCount, rest) : Nat × Nat × Nat × List Char :=
    match rest with
    | '.' :: more =>
      let (f, k, rest') := digitsOf 10 more
      if wholeCount == 0 && k == 0 then (whole, 0, 0, rest)
      else (whole * Nat.pow 10 k + f, wholeCount + k, k, rest')
    | _ => (whole, wholeCount, 0, rest)
  if count == 0 then none
  else
    let plain : Float × List Char := (ofDecimal digits (-(fracCount : Int)), rest)
    match rest with
    | c :: more =>
      if c == 'e' || c == 'E' then
        let (negative, more) : Bool × List Char :=
          match more with
          | '-' :: more => (true, more)
          | '+' :: more => (false, more)
          | more => (false, more)
        let (e, k, rest') := digitsOf 10 more
        if k == 0 then some plain
        else
          let e : Int := if negative then -(min e 100000 : Nat) else (min e 100000 : Nat)
          some (ofDecimal digits (e - fracCount), rest')
      else some plain
    | [] => some plain

/-- A signed decimal number or infinity at the start of a text, and what follows. -/
def signedDecimal? (cs : List Char) : Option (Float × List Char) :=
  let unsigned (cs : List Char) : Option (Float × List Char) :=
    match cs with
    | 'I' :: 'n' :: 'f' :: 'i' :: 'n' :: 'i' :: 't' :: 'y' :: rest => some (infinity, rest)
    | cs => decimal? cs
  match cs with
  | '-' :: rest => (unsigned rest).map fun (x, r) => (-x, r)
  | '+' :: rest => unsigned rest
  | cs => unsigned cs

/-- A text without the white space of guest code at its ends. -/
def trimChars (s : String) : List Char :=
  let space (c : Char) : Bool := Str.isSpaceUnit c.toNat
  (((s.toList).dropWhile space).reverse.dropWhile space).reverse

/-- The number that a whole text names; a blank text names zero. -/
def ofText (s : String) : Float :=
  match trimChars s with
  | [] => 0.0
  | '0' :: b :: rest =>
    let base : Nat :=
      if b == 'x' || b == 'X' then 16
      else if b == 'o' || b == 'O' then 8
      else if b == 'b' || b == 'B' then 2
      else 10
    if base == 10 then
      match signedDecimal? ('0' :: b :: rest) with
      | some (x, []) => x
      | _ => nan
    else
      match digitsOf base rest with
      | (n, k, []) => if k == 0 then nan else ofRatio n 1
      | _ => nan
  | cs =>
    match signedDecimal? cs with
    | some (x, []) => x
    | _ => nan

/-- The whole number of any size that a whole text names; a blank text names zero. -/
def bigOfText? (s : String) : Option Int :=
  match trimChars s with
  | [] => some 0
  | '0' :: b :: rest =>
    let base : Nat :=
      if b == 'x' || b == 'X' then 16
      else if b == 'o' || b == 'O' then 8
      else if b == 'b' || b == 'B' then 2
      else 10
    match digitsOf base (if base == 10 then '0' :: b :: rest else rest) with
    | (n, k, []) => if k == 0 then none else some n
    | _ => none
  | '-' :: cs =>
    match digitsOf 10 cs with
    | (n, k, []) => if k == 0 then none else some (-(n : Int))
    | _ => none
  | '+' :: cs | cs =>
    match digitsOf 10 cs with
    | (n, k, []) => if k == 0 then none else some n
    | _ => none

end ScriptSandbox.Numeral
