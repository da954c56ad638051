/-!
# Durations

A duration is a whole number of seconds and a rest in nanoseconds. `Duration.text` writes it in
the largest unit that leaves a whole part, with as many decimals as it needs and no trailing zero:
`15s`, `1.5s`, `999ms`, `2.5µs`, `0ns`.
-/

namespace ScriptSandbox

/-- A span of time. -/
structure Duration where
  seconds : Nat
  nanos : Nat
  deriving DecidableEq, Repr, Inhabited

namespace Duration

/-- The span in nanoseconds. -/
def toNanos (d : Duration) : Nat := d.seconds * 1000000000 + d.nanos

/-- The span with the given number of nanoseconds. -/
def ofNanos (n : Nat) : Duration := ⟨n / 1000000000, n % 1000000000⟩

/-- The span with the given number of nanoseconds, unless its seconds take more than 64 bits. -/
def ofNanos? (n : Nat) : Option Duration :=
  if n / 1000000000 < 18446744073709551616 then some (ofNanos n) else none

/-- The span with the given number of milliseconds. -/
def ofMillis (n : Nat) : Duration := ⟨n / 1000, n % 1000 * 1000000⟩

/-- The span of some seconds and nanoseconds, of which the latter may exceed a second. -/
def of (seconds nanos : Nat) : Duration := ofNanos (seconds * 1000000000 + nanos)

def fixedDigits (width n : Nat) : List Char :=
  let ds := Nat.toDigits 10 n
  List.replicate (width - ds.length) '0' ++ ds

def dropTrailingZeros (ds : List Char) : List Char :=
  (ds.reverse.dropWhile (· == '0')).reverse

/-- A whole part and a fraction of `width` digits, written with a point if the fraction counts. -/
def decimal (whole fraction width : Nat) : String :=
  match dropTrailingZeros (fixedDigits width fraction) with
  | [] => toString whole
  | ds => toString whole ++ "." ++ String.ofList ds

/-- The written form. -/
def text (d : Duration) : String :=
  if d.seconds > 0 then decimal d.seconds d.nanos 9 ++ "s"
  else if d.nanos ≥ 1000000 then decimal (d.nanos / 1000000) (d.nanos % 1000000) 6 ++ "ms"
  else if d.nanos ≥ 1000 then decimal (d.nanos / 1000) (d.nanos % 1000) 3 ++ "µs"
  else toString d.nanos ++ "ns"

/-- The span in milliseconds, in numbers of any kind, of which `number` gives the whole ones: whole
seconds plus the rest over a billion, times a thousand. -/
def millisIn {α : Type} [Add α] [Mul α] [Div α] (number : Nat → α) (d : Duration) : α :=
  (number d.seconds + number d.nanos / number 1000000000) * number 1000

/-- The span in milliseconds, as a double. -/
def toMillis (d : Duration) : Float := d.millisIn Float.ofNat

end Duration
end ScriptSandbox
