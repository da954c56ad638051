import ScriptSandbox.Regex.Tree

/-!
# Programs that find patterns

A pattern becomes a list of instructions. Each state of a search is at one instruction and at one
place of the subject; where a pattern leaves a choice, `fork` goes on with one alternative and keeps
the other for later. What stands behind a place is found by the same instructions running towards
the start of the subject.
-/

namespace ScriptSandbox.Regex

/-- An instruction of a search. -/
inductive Instr where
  /-- Passes a character, towards the start if `back`. -/
  | one (t : Test) (back : Bool)
  | lineStart
  | lineEnd
  | wordEdge (wanted : Bool)
  /-- Goes on at the first instruction, and later perhaps at the second. -/
  | fork (first second : Nat)
  | jump (target : Nat)
  /-- Notes the place; a group's start and end are two numbers in turn. -/
  | note (slot : Nat)
  /-- Forgets the groups from one number to another. -/
  | forget (first last : Nat)
  | again (group : Nat) (back : Bool)
  /-- Begins a repetition with no rounds. -/
  | beginRounds
  /-- Begins a round, or leaves the repetition. -/
  | round (least : Nat) (most : Option Nat) (greedy : Bool) (exit : Nat)
  /-- Ends a round; one that was not needed and passed nothing fails. -/
  | endRound (least start : Nat)
  | endRounds
  /-- Runs what follows up to `found` on its own; then the search goes on elsewhere. -/
  | look (negated : Bool) (next : Nat)
  | found
  deriving Inhabited

/-- The instructions for a pattern, when the first one has a given number. -/
def code (back : Bool) : Node → (start : Nat) → List Instr
  | .empty, _ => []
  | .one t, _ => [.one t back]
  | .lineStart, _ => [.lineStart]
  | .lineEnd, _ => [.lineEnd]
  | .wordEdge wanted, _ => [.wordEdge wanted]
  | .seq a b, n =>
    if back then
      let cb := code back b n
      cb ++ code back a (n + cb.length)
    else
      let ca := code back a n
      ca ++ code back b (n + ca.length)
  | .either a b, n =>
    let ca := code back a (n + 1)
    let second := n + 1 + ca.length + 1
    let cb := code back b second
    .fork (n + 1) second :: ca ++ .jump (second + cb.length) :: cb
  | .group i a, n =>
    let (first, last) := if back then (2 * i + 1, 2 * i) else (2 * i, 2 * i + 1)
    .note first :: code back a (n + 1) ++ [.note last]
  | .repeated a least most greedy firstGroup lastGroup, n =>
    let body := code back a (n + 3)
    let exit := n + 3 + body.length + 1
    .beginRounds :: .round least most greedy exit :: .forget firstGroup lastGroup :: body
      ++ [.endRound least (n + 1), .endRounds]
  | .again i, _ => [.again i back]
  | .look ahead negated a, n =>
    let body := code (!ahead) a (n + 1)
    .look negated (n + 1 + body.length + 1) :: body ++ [.found]

def programOf (node : Node) : Array Instr := (code false node 0 ++ [Instr.found]).toArray

end ScriptSandbox.Regex
