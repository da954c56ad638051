import ScriptSandbox.Data.Assoc

/-!
# Counts of events

A counter holds a number for each event name seen, in the order of the names.
-/

namespace ScriptSandbox

/-- The names that both engines count under. -/
def eventNames : List String :=
  ["executions", "guest_errors", "module_fetches", "realm_rebuilds", "protocol_timeouts"]

/-- Counts by name. -/
structure Counter where
  counts : Assoc Nat := []
  deriving DecidableEq, Repr, Inhabited

namespace Counter

def increment (c : Counter) (name : String) (n : Nat) : Counter :=
  ⟨c.counts.alter name fun before => before.getD 0 + n⟩

def get (c : Counter) (name : String) : Nat := (c.counts.get? name).getD 0

/-- Every name seen with its count, in the order of the names. -/
def snapshot (c : Counter) : List (String × Nat) := c.counts

end Counter
end ScriptSandbox
