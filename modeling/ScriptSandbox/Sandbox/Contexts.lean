import ScriptSandbox.Guest.Heap
import ScriptSandbox.Library.Globals
import ScriptSandbox.Sandbox.Vm

/-!
# Contexts of one machine

A context can be replaced by a fresh one. Jobs that code in the old one has left still run, before
those of the new one; so contexts that have been replaced are kept until their jobs are done.
-/

namespace ScriptSandbox

/-- The bytes that a context takes on which nothing has run. -/
def Machine.freshBytes : Nat := Machine.fresh.bytesInUse

/-- A machine with the contexts that have been replaced, the oldest first. -/
structure Contexts where
  current : Machine
  retired : List Machine := []
  deriving Inhabited

namespace Contexts

open Exec

/-- A machine without bounds. -/
def unlimited : Contexts :=
  ⟨{ Machine.fresh with memory := { charged := Machine.freshBytes } }, []⟩

/-- The number of polls after which a run that begins now seems not to end. -/
def deadlineOf (i : Interrupts) : Option Nat :=
  match i.budget with
  | some _ => none
  | none => some (i.polls + endlessPolls)

/-- A machine within bounds; a stack size of zero is none. -/
def within (l : Limits) : Contexts :=
  let budget := saturatingAdd Machine.freshBytes l.memoryLimit
  let current : Machine :=
    { Machine.fresh with
      stackLimit := if l.maxStackSize == 0 then none else some l.maxStackSize
      interrupts :=
        { budget := l.interruptBudget, killed := l.killed
          deadline := deadlineOf { budget := l.interruptBudget } }
      memory :=
        { charged := Machine.freshBytes
          budget := some budget
          limit := some (saturatingAdd budget backstopHeadroom) } }
  ⟨current, []⟩

/-- A fresh context on the same machine. -/
def renewed (m : Machine) : Machine :=
  { Machine.fresh with
    context := m.context + 1
    stackLimit := m.stackLimit
    interrupts := { m.interrupts with countdown := 0, deadline := deadlineOf m.interrupts }
    memory := { m.memory with charged := Machine.freshBytes, tripped := false, pins := 0 }
    random := m.random }

/-! ## Operations -/

def surrounded (m : Machine) (host : Host) (tracks : Bool) (rejections : List Rejection) :
    Machine :=
  { m with host, tracks, rejections }

/-- What remains when an operation has ended. -/
def settled (m : Machine) : Machine :=
  { m with frames := #[], stack := 0, memory := { m.memory with pins := 0 } }

def runOn {α : Type} (act : Exec α) (m : Machine) : Except (Fault Value) α × Machine :=
  match act (Calls.level Library.library Calls.levels) m with
  | .ok a m => (.ok a, settled m)
  | .error (.thrown v) m => (.error (.thrown v), settled m)
  | .error .exhausted m => (.error (.host "out of steps"), settled m)

/-- Runs an operation in the current context. -/
def run {α : Type} (act : Exec α) : Attempted Contexts Value α :=
  fun ⟨⟨m, retired⟩, host, tracks, rejections⟩ =>
    match runOn act (surrounded m host tracks rejections) with
    | (r, m) => (r, ⟨⟨m, retired⟩, m.host, tracks, m.rejections⟩)

/-- Runs an operation that holds values which only it knows. -/
def runHolding {α : Type} (act : Exec α) : Attempted Contexts Value α :=
  run do
    pin true
    let a ← act
    pin false
    return a

/-- Runs an operation that does not fail. -/
def runSafe {α : Type} (act : Exec α) (otherwise : α) : Change Contexts α := do
  match ← (runHolding act).run with
  | .ok a => return a
  | .error _ => return otherwise

def keep (v : Value) : Exec Value := do
  modify fun m => { m with roots := v :: m.roots }
  return v

/-! ## Code -/

def scriptName : String := "eval_script"

def runScript (source : String) : Exec Value := do
  chargeSource source
  let p ← orFault scriptName (Language.readAsScript source true)
  let code ← orFault scriptName (Compile.script p scriptName source)
  declareGlobals code.globals
  let f ← newClosure code #[] none none
  let v ← call' (.obj f)
  keep v
where
  /-- Calls the function that a script is. -/
  call' (f : Value) : Exec Value := fun c => c.call f (.obj Intrinsic.global.address) #[]

/-- Runs a script; a text with a zero byte is none. -/
def evaluate (source : String) : Attempted Contexts Value Value :=
  match nulPlace? source with
  | some i => throw (.host (nulMessage i))
  | none => run (runScript source)

def importModule (name : String) : Attempted Contexts Value Value :=
  evaluate ("import(" ++ (Json.Value.text name).compact ++ ")")

/-- The name of what a value is, as messages about conversions show it. -/
def kindName : Value → String
  | .undefined | .hole => "undefined"
  | .null => "null"
  | .bool _ => "bool"
  | .int _ => "int"
  | .num _ => "float"
  | .str _ => "string"
  | .sym _ => "symbol"
  | .big _ => "big_int"
  | .obj _ => "object"

/-- Fails with words if a value is no object. -/
def needObject (v : Value) : Attempted Contexts Value Value :=
  match v with
  | .obj _ => return v
  | v => throw (.host ("Error converting from js '" ++ kindName v ++ "' into type 'object'"))

/-- What has become of a value, if it is a promise. -/
def settlement (w : World Contexts) (v : Value) : Option (Settlement Value) :=
  match v with
  | .obj a =>
    match (w.core.current.heap.getD a default).kind with
    | .promise p =>
      match p.status with
      | .pending => some .pending
      | .fulfilled => some (.fulfilled p.value)
      | .rejected => some (.rejected p.value)
    | _ => none
  | _ => none

def defaultKey : Key := .named "default"

/-- The value of a module: its default export, or all exports if there are any. -/
def completionOf (v : Value) : Exec Value := do
  let a ← Exec.needObject v
  if ← hasProperty a defaultKey then keep (← getProp a defaultKey)
  else
    let listed ← (← ownKeys a).anyM fun k => do
      if k.isSymbol then return false
      else return ((← getOwn a k).map Property.enumerable).getD false
    return if listed then v else .undefined

/-! ## Jobs -/

/-- Does the oldest job of a machine; tells whether there was one. -/
def jobOn (m : Machine) : Bool × Machine :=
  match runOn nextJob m with
  | (.ok none, m) => (false, m)
  | (_, m) => (true, m)

/-- Does the oldest job, if there is one; a machine that was given up does nothing more. -/
def runJob : Change Contexts Bool :=
  fun ⟨⟨m, retired⟩, host, tracks, rejections⟩ =>
    match m.interrupts.expired, retired with
    | true, retired => (false, ⟨⟨m, retired⟩, host, tracks, rejections⟩)
    | false, [] =>
      match jobOn (surrounded m host tracks rejections) with
      | (done, m) => (done, ⟨⟨m, []⟩, m.host, tracks, m.rejections⟩)
    | false, old :: rest =>
      match jobOn (surrounded { old with interrupts := m.interrupts } host tracks rejections) with
      | (_, old) =>
        let retired := if old.jobs.isEmpty then rest else old :: rest
        (true, ⟨⟨{ m with interrupts := old.interrupts }, retired⟩, old.host, tracks,
          old.rejections⟩)

/-- Replaces the context by a fresh one. -/
def renew : Attempted Contexts Value Unit :=
  modify fun w =>
    let m := w.core.current
    let retired := if m.jobs.isEmpty then w.core.retired else w.core.retired ++ [m]
    { w with core := ⟨renewed m, retired⟩ }

/-! ## The console -/

def consoleMethod (level : LogLevel) (keeps : Bool) : Exec (Key × Property) := do
  return (.named level.name, .plain (← newNative (.console level keeps) #[] "" 0))

def giveConsole (keeps : Bool) : Exec Unit := do
  let methods ← LogLevel.all.mapM fun level => consoleMethod level keeps
  let console ← newObjectOf .objectPrototype .plain methods
  createData Intrinsic.global.address (.named "console") console

/-- The script whose function wraps each method of the console into one that also records. -/
def recorderScript : String :=
  "\n(function (record) \x7b\n" ++
  "  for (const level of [\"log\", \"error\", \"warn\", \"info\"]) \x7b\n" ++
  "    const original = console[level];\n" ++
  "    console[level] = function (...args) \x7b\n" ++
  "      record(level, ...args);\n" ++
  "      return original.apply(this, args);\n" ++
  "    \x7d;\n" ++
  "  \x7d\n" ++
  "\x7d)\n"

/-- Gives the guest a console that is recorded from inside. -/
def giveRecorder : Exec Unit := do
  giveConsole false
  let wrap ← runScript recorderScript
  let record ← newNative .record #[] "" 0
  let _ ← call wrap .undefined #[record]

/-! ## The machine of a host -/

def isExhausted (m : Machine) : Bool :=
  m.memory.tripped ||
    match m.memory.limit with
    | some limit =>
      m.memory.charged + exhaustionSlack ≥ limit && m.bytesInUse + exhaustionSlack ≥ limit
    | none => false

/-- The machine that hosts use. -/
def vm : Vm Contexts Value where
  boot l := .ok (within l)
  renew := renew
  installConsole := runHolding (giveConsole true)
  installRecorder := runHolding giveRecorder
  evaluate := evaluate
  importModule := importModule
  settlement := settlement
  needObject := needObject
  completion v := runHolding (completionOf v)
  runJob := runJob
  render v := runSafe (Marshal.completion v) none
  classify v := runSafe (GuestError.ofValue v) (.other "null")
  exhausted w := isExhausted w.core.current
  polls w := w.core.current.interrupts.polls
  endless w := w.core.current.interrupts.expired
  setKilled b := modify fun w =>
    let m := w.core.current
    { w with core := { w.core with
        current := { m with interrupts := { m.interrupts with killed := b } } } }

end Contexts
end ScriptSandbox
