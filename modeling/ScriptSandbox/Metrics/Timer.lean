import ScriptSandbox.Duration

/-!
# Times of executions

A timer keeps the durations of the last executions, as many as its capacity, oldest first. Its
statistics are in milliseconds; all are zero while nothing has been recorded.
-/

namespace ScriptSandbox

/-- The durations of the last executions. -/
structure Timer where
  /-- The reading at which an execution began that has not ended. -/
  started : Option Duration := none
  window : List Duration := []
  capacity : Nat := 32
  deriving DecidableEq, Repr, Inhabited

namespace Timer

/-- A timer that keeps `capacity` durations, at least one. -/
def new (capacity : Nat) : Timer := { capacity := max capacity 1 }

/-- An execution begins at a reading of the clock; an earlier begin is forgotten. -/
def begin (t : Timer) (reading : Duration) : Timer := { t with started := some reading }

/-- Keeps one more duration; the oldest goes if the window is full. -/
def record (t : Timer) (d : Duration) : Timer :=
  let kept := if t.window.length == t.capacity then t.window.tail else t.window
  { t with window := kept ++ [d] }

/-- The execution that began ends at a reading of the clock; without one, nothing happens. -/
def finish (t : Timer) (reading : Duration) : Timer :=
  match t.started with
  | none => t
  | some s => { t with started := none }.record (.ofNanos (reading.toNanos - s.toNanos))

/-- How many durations are kept. -/
def samples (t : Timer) : Nat := t.window.length

/-- The sum of the durations kept, unless it is too long for a duration. -/
def total? (t : Timer) : Option Duration :=
  Duration.ofNanos? ((t.window.map Duration.toNanos).foldr (· + ·) 0)

/-- The mean in milliseconds, in numbers of any kind; there is none without a sum. -/
def mean? {α : Type} [Add α] [Mul α] [Div α] (number : Nat → α) (t : Timer) : Option α :=
  if t.window.isEmpty then some (number 0)
  else t.total?.map fun total => total.millisIn number / number t.window.length

/-- The mean in milliseconds, as a double; zero if there is none. -/
def average (t : Timer) : Float := (t.mean? Float.ofNat).getD 0.0

def shortest (t : Timer) : Duration := .ofNanos ((t.window.map Duration.toNanos).min?.getD 0)

def longest (t : Timer) : Duration := .ofNanos ((t.window.map Duration.toNanos).max?.getD 0)

end Timer
end ScriptSandbox
