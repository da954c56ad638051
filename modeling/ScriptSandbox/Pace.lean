/-!
# The pace of guest code

Nothing in the library looks at a real clock while guest code runs: time passes with the polls of
the interrupt handler, at one pace. So what a host decides by the clock - that a reply comes too
late, what time it is - depends on what the guest does and on nothing else.
-/

namespace ScriptSandbox

/-- How long guest code runs from one poll of the interrupt handler to the next, in nanoseconds. -/
def pollNanos : Nat := 100000

/-- After how many polls a run seems not to end, where no budget ends it. -/
def endlessPolls : Nat := 400

/-- How long a run takes that was polled so often, in nanoseconds; no run takes no time. -/
def runNanos (polls : Nat) : Nat := (polls + 1) * pollNanos

end ScriptSandbox
