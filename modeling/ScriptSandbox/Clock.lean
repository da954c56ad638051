/-!
# A clock that never stands still

Stamps are milliseconds. A tick takes the reading of the wall clock, or the last stamp plus one if
that is later, so stamps rise strictly until they reach the largest stamp, `2^64 - 1`.
-/

namespace ScriptSandbox

def maxStamp : Nat := Nat.pow 2 64 - 1

/-- A clock, by the last stamp it gave. -/
structure Clock where
  last : Nat := 0
  deriving DecidableEq, Repr, Inhabited

namespace Clock

def startingAfter (stamp : Nat) : Clock := ⟨stamp⟩

/-- The next stamp, at a reading of the wall clock. -/
def tick (c : Clock) (reading : Nat) : Nat × Clock :=
  let stamp := max reading (min (c.last + 1) maxStamp)
  (stamp, ⟨stamp⟩)

end Clock
end ScriptSandbox
