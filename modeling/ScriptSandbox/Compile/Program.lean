import ScriptSandbox.Compile.Statement
import ScriptSandbox.Language.Module

/-!
# Programs

A script declares its names globally and has the value of its last statement. Code for `eval` sees
the variables of the place where it is called. A module has variables of its own, which the linker
makes, and begins with a pause, at which its functions are there but nothing else has run.
-/

namespace ScriptSandbox.Compile

open ScriptSandbox.Language

/-- The parts of a function that is a whole program. -/
structure Top where
  strict : Bool
  body : List Stmt
  inner : List String
  hasEval : Bool

/-- The parts of the function that a program is. -/
def topOf (p : Program) : Top :=
  match p.body with
  | .mk _ _ _ _ strict _ body inner hasEval _ _ _ => ⟨strict, body, inner, hasEval⟩

def run (file : String) (act : Compiling Code) : Except SourceFault Code :=
  match act { file } with
  | .ok c _ => .ok c
  | .error e _ => .error e

/-- Returns the value of the last statement. -/
def emitCompletion (c : Nat) : Compiling Unit := do
  emit (.getLocal c)
  emit .return

/-- What the statements of a script declare globally. -/
def globalNames (body : List Stmt) : GlobalNames :=
  { lexical := lexicalNames body
    vars := varNames body
    functions := ((functionsIn body).map functionName).eraseDups }

def script (p : Program) (file source : String) : Except SourceFault Code :=
  run file do
    let t := topOf p
    enterFunction
      { name := "<eval>", strict := t.strict, inner := t.inner, hasEval := t.hasEval, locals := 1,
        completion := some 0 }
    if (← current).reaches "this" then declareValue "this" .var .pushThis
    let r := rules nestingLimit
    emitHoisted r t.body
    t.body.forM fun s => r.stmt s []
    emitCompletion 0
    let code ← leaveFunction
    return { code with source, globals := globalNames t.body }

/-- The code for `eval` where it sees some variables; names of its own stay in it if it is strict,
and are global otherwise. -/
def evalCode (p : Program) (source : String) (visible : List VisibleName) (isDirect : Bool) :
    Except SourceFault Code :=
  run "<input>" do
    let t := topOf p
    let outer : FunctionState :=
      { scopes := [{ vars := visible.map fun v =>
          ⟨v.name, .cell v.cell, if v.isConst then .const else if v.checked then .lexical else .var,
            v.checked⟩ }] }
    modify fun s => { s with current := outer }
    enterFunction
      { name := "<eval>", kind := if isDirect then .arrow else .plain, strict := t.strict,
        inner := t.inner, hasEval := t.hasEval, locals := 1, completion := some 0 }
    if !isDirect && (← current).reaches "this" then declareValue "this" .var .pushThis
    let r := rules nestingLimit
    let isGlobal := !t.strict
    if !isGlobal then
      declareVars (varNames t.body) false
      declareVars ((functionsIn t.body).map functionName) false
    declareLexicals t.body false
    emitHoisted r t.body
    t.body.forM fun s => r.stmt s []
    emitCompletion 0
    let code ← leaveFunction
    let globals : GlobalNames :=
      if isGlobal then { globalNames t.body with lexical := [] } else {}
    return { code with source, globals }

def module (p : Program) (file source : String) :
    Except SourceFault (Code × List ModuleVariable) :=
  let act : Compiling (Code × List ModuleVariable) := do
    let t := topOf p
    enterFunction
      { isAsync := true, strict := true, inner := t.inner, hasEval := t.hasEval, isModule := true }
    p.imports.forM fun i => do
      let _ ← declare i.name .const true
    declareVars (varNames t.body) true
    declareVars ((functionsIn t.body).map functionName) true
    declareLexicals t.body true
    let f ← current
    let bindings := (f.scopes.headD {}).vars.filterMap fun v =>
      match v.place with
      | .cell i => some ⟨v.name, i, v.checked⟩
      | .local _ => none
    let r := rules nestingLimit
    emitHoisted r t.body
    emit .initialYield
    t.body.forM fun s => r.stmt s []
    emit (.push .undefined)
    emit .return
    let code ← leaveFunction
    return ({ code with source }, bindings)
  match act { file } with
  | .ok c _ => .ok c
  | .error e _ => .error e

end ScriptSandbox.Compile
