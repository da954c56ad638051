/-!
# Strings of guest code

A string of guest code is a sequence of 16-bit units. Nearly all of them are well-formed text, and
these are held as text together with their length in units; a string with a surrogate that has no
partner is held unit by unit. The two forms never overlap: `Str.ofUnits` chooses the first
whenever it can, so equal strings are equal values.
-/

namespace ScriptSandbox

/-- A string of guest code. -/
inductive Str where
  /-- Well-formed text and its length in units. -/
  | plain (text : String) (length : Nat)
  /-- Units that are not well-formed. -/
  | units (us : Array UInt16)
  deriving BEq, Hashable, Inhabited

namespace Str

def unitsOf (c : Char) : List UInt16 :=
  let n := c.toNat
  if n < 0x10000 then [UInt16.ofNat n]
  else
    [UInt16.ofNat (0xD800 + (n - 0x10000) / 0x400), UInt16.ofNat (0xDC00 + (n - 0x10000) % 0x400)]

/-- How many units a byte of a text stands for: the first byte of a character stands for all of it. -/
def unitsAt (b : UInt8) : Nat := if b &&& 0xC0 == 0x80 then 0 else if b < 0xF0 then 1 else 2

def lengthOf (s : String) : Nat := s.toUTF8.foldl (fun n b => n + unitsAt b) 0

def ofString (s : String) : Str := .plain s (lengthOf s)

def empty : Str := .plain "" 0

def length : Str → Nat
  | .plain _ n => n
  | .units us => us.size

/-- The first half of a pair. -/
def isHigh (u : UInt16) : Bool := 0xD800 ≤ u && u < 0xDC00

/-- The second half of a pair. -/
def isLow (u : UInt16) : Bool := 0xDC00 ≤ u && u < 0xE000

def joinPair (hi lo : UInt16) : Nat := 0x10000 + (hi.toNat - 0xD800) * 0x400 + (lo.toNat - 0xDC00)

def toUnits : Str → Array UInt16
  | .plain s _ => s.foldl (fun us c => (unitsOf c).foldl Array.push us) #[]
  | .units us => us

/-- The text of some units; a surrogate without a partner is replaced if `lossy`, and otherwise
there is no text. -/
def decodeUnits (lossy : Bool) : List UInt16 → String → Option String
  | [], acc => some acc
  | [u], acc =>
    if !isHigh u && !isLow u then some (acc.push (Char.ofNat u.toNat))
    else if lossy then some (acc.push '\uFFFD')
    else none
  | u :: v :: us, acc =>
    if isHigh u && isLow v then decodeUnits lossy us (acc.push (Char.ofNat (joinPair u v)))
    else if !isHigh u && !isLow u then
      decodeUnits lossy (v :: us) (acc.push (Char.ofNat u.toNat))
    else if lossy then decodeUnits lossy (v :: us) (acc.push '\uFFFD')
    else none

def ofUnits (us : Array UInt16) : Str :=
  match decodeUnits false us.toList "" with
  | some s => .plain s us.size
  | none => .units us

/-- The text of a string, if it is well-formed. -/
def toString? : Str → Option String
  | .plain s _ => some s
  | .units _ => none

/-- The text of a string; surrogates without a partner are replaced. -/
def toLossy : Str → String
  | .plain s _ => s
  | .units us => (decodeUnits true us.toList "").getD ""

def unitAt? (s : Str) (i : Nat) : Option UInt16 :=
  match s with
  | .plain t n =>
    if t.utf8ByteSize == n then
      if h : (⟨i⟩ : String.Pos.Raw) < t.rawEndPos then some (t.getUTF8Byte ⟨i⟩ h).toUInt16
      else none
    else if i < n then s.toUnits[i]? else none
  | .units us => us[i]?

def append : Str → Str → Str
  | .plain a n, .plain b k => .plain (a ++ b) (n + k)
  | a, b => ofUnits (a.toUnits ++ b.toUnits)

instance : Append Str := ⟨append⟩

def slice (s : Str) (start stop : Nat) : Str :=
  let stop := min stop s.length
  if start ≥ stop then empty
  else if start == 0 && stop == s.length then s
  else
    match s with
    | .plain t n =>
      if t.utf8ByteSize == n then .plain (String.Pos.Raw.extract t ⟨start⟩ ⟨stop⟩) (stop - start)
      else ofUnits (s.toUnits.extract start stop)
    | .units us => ofUnits (us.extract start stop)

def ofUnit (u : UInt16) : Str := ofUnits #[u]

def ofCodePoint (n : Nat) : Str :=
  if 0xD800 ≤ n && n < 0xE000 then .units #[UInt16.ofNat n]
  else .plain (String.singleton (Char.ofNat n)) (if n < 0x10000 then 1 else 2)

def ofCodePoints (ns : List Nat) : Str :=
  ofUnits (ns.foldl (fun us n => us ++ (ofCodePoint n).toUnits) #[])

/-- The code point at a place, and how many units it takes. -/
def codePointAt (s : Str) (i : Nat) : Option (Nat × Nat) :=
  match s.unitAt? i with
  | none => none
  | some u =>
    if isHigh u then
      match s.unitAt? (i + 1) with
      | some v => if isLow v then some (joinPair u v, 2) else some (u.toNat, 1)
      | none => some (u.toNat, 1)
    else some (u.toNat, 1)

/-- All code points, in order. -/
def codePoints (s : Str) : List Nat :=
  match s with
  | .plain t _ => t.toList.map Char.toNat
  | .units us =>
    let rec go : List UInt16 → List Nat
      | [] => []
      | [u] => [u.toNat]
      | u :: v :: rest =>
        if isHigh u && isLow v then joinPair u v :: go rest else u.toNat :: go (v :: rest)
    go us.toList

/-- Whether a string comes before another, unit by unit. -/
def lt (a b : Str) : Bool :=
  match a, b with
  | .plain s n, .plain t k =>
    if s.utf8ByteSize == n && t.utf8ByteSize == k then decide (s < t)
    else decide (a.toUnits.toList < b.toUnits.toList)
  | a, b => decide (a.toUnits.toList < b.toUnits.toList)

def isPrefixAt (needle hay : Array UInt16) (at_ : Nat) : Bool :=
  at_ + needle.size ≤ hay.size && needle.toList == (hay.extract at_ (at_ + needle.size)).toList

/-- The first place from `start` on at which `needle` stands in a string. -/
def indexOf? (s needle : Str) (start : Nat) : Option Nat :=
  let hay := s.toUnits
  let n := needle.toUnits
  let rec go : Nat → Nat → Option Nat
    | 0, _ => none
    | fuel + 1, i =>
      if i + n.size > hay.size then none
      else if isPrefixAt n hay i then some i
      else go fuel (i + 1)
  go (hay.size + 2) start

/-- The last place up to `start` at which `needle` stands in a string. -/
def lastIndexOf? (s needle : Str) (start : Nat) : Option Nat :=
  let hay := s.toUnits
  let n := needle.toUnits
  let rec go : Nat → Option Nat
    | 0 => if isPrefixAt n hay 0 then some 0 else none
    | i + 1 => if isPrefixAt n hay (i + 1) then some (i + 1) else go i
  if n.size > hay.size then none else go (min start (hay.size - n.size))

def repeated (s : Str) (n : Nat) : Str :=
  match s with
  | .plain t k =>
    let rec go (t : String) : Nat → String → String
      | 0, acc => acc
      | n + 1, acc => go t n (acc ++ t)
    .plain (go t n "") (k * n)
  | .units us => ofUnits ((List.replicate n us.toList).flatten.toArray)

def join (sep : Str) : List Str → Str
  | [] => empty
  | s :: ss => ss.foldl (fun acc s => acc ++ sep ++ s) s

/-- Applies a function to the text; surrogates without a partner stay as they are. -/
def mapText (f : String → String) : Str → Str
  | .plain s _ => ofString (f s)
  | s => s

/-- What guest code takes for white space. -/
def isSpaceUnit (n : Nat) : Bool :=
  n == 0x20 || (9 ≤ n && n ≤ 13) || n == 0xA0 || n == 0xFEFF || n == 0x1680
    || (0x2000 ≤ n && n ≤ 0x200A) || n == 0x2028 || n == 0x2029 || n == 0x202F || n == 0x205F
    || n == 0x3000

def trimmed (s : Str) (atStart atEnd : Bool) : Str :=
  let us := s.toUnits.toList
  let space (u : UInt16) : Bool := isSpaceUnit u.toNat
  let us := if atStart then us.dropWhile space else us
  let us := if atEnd then (us.reverse.dropWhile space).reverse else us
  ofUnits us.toArray

end Str
end ScriptSandbox
