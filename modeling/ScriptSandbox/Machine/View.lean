import ScriptSandbox.Machine.Value

/-!
# Views of buffers

A view shows the bytes of a buffer as numbers of one kind, the lowest byte first. Writing a number
reduces it to the bits that the kind has room for.
-/

namespace ScriptSandbox.View

def kindNames : List String :=
  ["Int8Array", "Uint8Array", "Uint8ClampedArray", "Int16Array", "Uint16Array", "Int32Array",
    "Uint32Array", "BigInt64Array", "BigUint64Array", "Float32Array", "Float64Array"]

def kindName (kind : Nat) : String := kindNames.getD kind ""

/-- How many bytes an element of each kind takes. -/
def kindSizes : List Nat := [1, 1, 1, 2, 2, 4, 4, 8, 8, 4, 8]

def elementSize (kind : Nat) : Nat := kindSizes.getD kind 1

def isBig (kind : Nat) : Bool := kind == 7 || kind == 8

/-- The byte at a place, or zero outside the buffer. -/
@[inline] def byteAt (bytes : ByteArray) (i : Nat) : Nat :=
  if h : i < bytes.size then bytes[i].toNat else 0

@[inline] def putByte (bytes : ByteArray) (i : Nat) (b : UInt8) : ByteArray :=
  if h : i < bytes.size then bytes.set i b h else bytes

def readBits (bytes : ByteArray) (start : Nat) : (count : Nat) → Nat
  | 0 => 0
  | n + 1 => byteAt bytes start + 256 * readBits bytes (start + 1) n

def writeBits (bytes : ByteArray) (start : Nat) (n : Nat) : (count : Nat) → ByteArray
  | 0 => bytes
  | k + 1 =>
    writeBits (putByte bytes start (UInt8.ofNat (n % 256))) (start + 1) (n / 256) k

/-- The number that the lowest bytes of a number make the other way round. -/
def reverseBytes (n : Nat) : (count : Nat) → Nat
  | 0 => 0
  | k + 1 => n % 256 * Nat.pow 256 k + reverseBytes (n / 256) k

def withSign (bits n : Nat) : Int :=
  if n ≥ Nat.pow 2 (bits - 1) then (n : Int) - Nat.pow 2 bits else n

def ofBits (kind n : Nat) : Value :=
  match kind with
  | 0 => .ofInt (withSign 8 n)
  | 3 => .ofInt (withSign 16 n)
  | 5 => .ofInt (withSign 32 n)
  | 7 => .big (withSign 64 n)
  | 8 => .big n
  | 9 => .ofFloat (Float32.ofBits (UInt32.ofNat n)).toFloat
  | 10 => .ofFloat (Float.ofBits (UInt64.ofNat n))
  | _ => .ofInt n

/-- The nearest whole number, halves going to the even one, within the range of a byte. -/
def clamp (x : Float) : Nat :=
  if x.isNaN || x ≤ 0.0 then 0
  else if x ≥ 255.0 then 255
  else
    let n := (Numeral.truncate x).toNat
    let frac := x - Float.ofNat n
    if frac > 0.5 || (frac == 0.5 && n % 2 == 1) then n + 1 else n

def toBits (kind : Nat) (x : Float) : Nat :=
  let whole : Int := if Numeral.isFinite x then Numeral.truncate x else 0
  match kind with
  | 2 => clamp x
  | 9 => x.toFloat32.toBits.toNat
  | 10 => x.toBits.toNat
  | k => (whole % (Nat.pow 2 (8 * elementSize k) : Nat)).toNat

def bigToBits (n : Int) : Nat := (n % 18446744073709551616).toNat

end ScriptSandbox.View
