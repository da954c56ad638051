import ScriptSandbox.Machine.Step

/-!
# Runs

A run goes from instruction to instruction until the function returns or is suspended. What is
thrown on the way looks for a handler in the frame, which it finds among those that wait, at the
depth at which the run began; without one it leaves the run, and everything that lay above is
dropped.
-/

namespace ScriptSandbox.Exec

/-- How many instructions a run may take. -/
def stepLimit : Nat := 1000000000000000

/-- Goes from instruction to instruction. -/
def steps : (fuel : Nat) → Frame → Exec Pause
  | 0, _ => throw .exhausted
  | fuel + 1, fr => do
    let pc := fr.pc
    match fr.code.ops[pc]? with
    | none => return .returned .undefined
    | some op =>
      match ← step { fr with pc := pc + 1 } op with
      | .go fr => steps fuel fr
      | .stop p => return p

/-! ## Failures -/

/-- What the machine looked like when a run began. -/
structure Entry where
  depth : Nat
  stack : Nat
  pins : Nat

/-- What a run was told by the operation that ended it. -/
inductive Outcome where
  | paused (p : Pause)
  /-- Something was thrown while a frame waited. -/
  | failed (v : Value) (fr : Frame)

/-- Goes on from instruction to instruction; a failure brings back the frame, and the machine to
where it was when the run began. -/
def stepsOrFailure (e : Entry) (act : Exec Pause) : Exec Outcome :=
  tryCatch (Outcome.paused <$> act) fun s =>
    match s with
    | .thrown v => do
      let waiting := (← get).frames[e.depth]?
      modify fun m => { m with
        frames := m.frames.shrink e.depth
        stack := e.stack
        memory := { m.memory with pins := e.pins } }
      match waiting with
      | some (.code fr) => return .failed v fr
      | _ => throwValue v
    | s => throw s

def isInterruption (v : Value) : Exec Bool := do
  match v with
  | .obj a =>
    match (← getObj a).kind with
    | .error uncatchable => return uncatchable
    | _ => return false
  | _ => return false

/-- Looks for a handler of what was thrown; iterators on the way are closed. -/
def unwind (v : Value) (fr : Frame) : List Handler → Exec (Option Frame)
  | [] => return none
  | h :: hs => do
    match h.kind with
    | .resume t =>
      return some { fr with
        handlers := hs
        pc := t
        stack := (fr.stack.shrink h.depth).push v }
    | .iterator =>
      let i := fr.stack.getD (h.depth - 2) .undefined
      if i.isUndefined then unwind v fr hs
      else
        let (_, fr) ← waiting fr (withNative "" #[v, i] (closeAfterThrow i))
        unwind v fr hs

/-- Goes on until the run ends, through failures that are handled. -/
def runHandled (e : Entry) : (fuel : Nat) → Exec Pause → Exec Pause
  | 0, _ => throw .exhausted
  | fuel + 1, act => do
    match ← stepsOrFailure e act with
    | .paused p => return p
    | .failed v fr =>
      if ← isInterruption v then throwValue v
      match ← unwind v fr fr.handlers with
      | some fr => runHandled e fuel (steps stepLimit fr)
      | none => throwValue v

/-! ## Entering and resuming -/

/-- About how many bytes of stack a run takes. -/
def frameBytes (c : Code) (args : Nat) : Nat := 400 + 16 * (c.locals + args + 8)

def runFrame (bytes : Nat) (act : Exec Pause) : Exec Pause := do
  let m ← get
  let isFull :=
    match m.stackLimit with
    | some limit => decide (m.stack + bytes > limit)
    | none => false
  if isFull then stackOverflow
  let below := m.stack
  let e : Entry := ⟨m.frames.size, below + bytes, m.memory.pins⟩
  modify fun m => { m with stack := below + bytes }
  let p ← runHandled e stepLimit act
  modify fun m => { m with stack := below }
  return p

def enter (fr : Frame) : Exec Pause :=
  runFrame (frameBytes fr.code fr.args.size) (steps stepLimit fr)

def throwIn (fr : Frame) (v : Value) : Exec Pause := do
  let (_, fr) ← waiting fr (throwValue (α := Unit) v)
  steps stepLimit fr

/-- How a resumption is numbered for a generator that passes it on. -/
def Resumption.number : Resumption → Int
  | .next => 0
  | .return => 1
  | .throw => 2

def resumeFrame (fr : Frame) (how : Resumption) (v : Value) : Exec Pause :=
  runFrame (frameBytes fr.code fr.args.size) <|
    match fr.code.ops[fr.pc - 1]?, how with
    | some .yieldDelegated, how => steps stepLimit ((fr.push v).push (.int (Resumption.number how)))
    | _, .throw => throwIn fr v
    | some .initialYield, _ => steps stepLimit fr
    | some .yield, how => steps stepLimit ((fr.push v).push (.bool (how == .return)))
    | _, _ => steps stepLimit (fr.push v)

end ScriptSandbox.Exec
