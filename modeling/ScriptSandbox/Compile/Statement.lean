import ScriptSandbox.Compile.Function

/-!
# Statements

The code of a statement leaves the stack as it was. In a script, the value of the last expression
statement is kept as the value of the whole.
-/

namespace ScriptSandbox.Compile

open ScriptSandbox.Language

/-- Forgets the value of the last statement. -/
def resetCompletion : Compiling Unit := do
  match (← current).completion with
  | some c =>
    emit (.push .undefined)
    emit (.putLocal c)
  | none => pure ()

/-- Declares variables and gives them their first values. -/
def emitDeclarators (r : Rules) (kind : DeclKind) (ds : List Declarator) : Compiling Unit :=
  ds.forM fun d => do
    let .mk p e _ := d
    match p, e with
    | .name x pos, some e =>
      emitNamed r x e
      match kind with
      | .var =>
        mark pos
        emitAssignName x
      | _ => emitFirst x
    | .name x _, none =>
      match kind with
      | .var => pure ()
      | _ =>
        emit (.push .undefined)
        emitFirst x
    | p, some e =>
      r.expr e
      r.pattern (if kind == .var then .assign else .init) p
    | _, none => pure ()

/-! ## Loops -/

/-- Runs the body of a loop, or of a labelled statement. -/
def inLoop (labels : List String) (breakTo continueTo : Nat) (act : Compiling Unit) :
    Compiling Unit :=
  inside (.target labels true breakTo (some continueTo)) act

/-- Whether an expression is true whenever it is evaluated. -/
def alwaysTrue : Expr → Bool
  | .bool b => b
  | .number x => !(x == 0.0 || x.isNaN)
  | .paren e => alwaysTrue e
  | _ => false

/-- Emits a test, which leads to a label if it fails; gives the steps that it counts for. -/
def emitTest (r : Rules) (test : Option Expr) (exit : Nat) : Compiling Nat := do
  match test with
  | none => return 1
  | some e =>
    if alwaysTrue e then return 1
    r.expr e
    emit (.jumpIfFalse exit)
    return 2

def emitWhile (r : Rules) (test : Expr) (body : Stmt) (labels : List String) : Compiling Unit := do
  let start ← newLabel
  let exit ← newLabel
  let next ← newLabel
  resetCompletion
  placeLabel start
  let steps ← emitTest r (some test) exit
  inLoop labels exit next (r.stmt body [])
  placeLabel next
  emit (.loop start steps)
  placeLabel exit

def emitDoWhile (r : Rules) (body : Stmt) (test : Expr) (labels : List String) :
    Compiling Unit := do
  let start ← newLabel
  let exit ← newLabel
  let next ← newLabel
  placeLabel start
  resetCompletion
  inLoop labels exit next (r.stmt body [])
  placeLabel next
  let _ ← emitTest r (some test) exit
  emit (.loop start 1)
  placeLabel exit

/-- Gives the variables of a loop's head new cells for the next round. -/
def emitCopies (names : List String) : Compiling Unit :=
  names.forM fun x => do
    match (← current).lookup? x with
    | some v =>
      match v.place with
      | .cell i => emit (.copyCell i)
      | .local _ => pure ()
    | none => pure ()

/-- `for` with a counter. -/
def emitFor (r : Rules) (init : Option Stmt) (test update : Option Expr) (body : Stmt)
    (labels : List String) : Compiling Unit := do
  let start ← newLabel
  let exit ← newLabel
  let next ← newLabel
  enterScope false
  let copied ←
    match init with
    | some (.declare .var ds) => do
      emitDeclarators r .var ds
      pure []
    | some (.declare kind ds) => do
      declareLexicals [.declare kind ds] false
      emitDeclarators r kind ds
      pure (if kind == .let then declaratorNames ds else [])
    | some (.expr e _) => do
      r.effect e
      pure []
    | _ => pure []
  resetCompletion
  emitCopies copied
  placeLabel start
  let steps ← emitTest r test exit
  inLoop labels exit next (r.stmt body [])
  placeLabel next
  emitCopies copied
  match update with
  | some e => r.effect e
  | none => pure ()
  emit (.loop start steps)
  placeLabel exit
  leaveScope

/-- Gives what the head of a loop names the value on top of the stack. -/
def emitHead (r : Rules) (h : ForHead) : Compiling Unit := do
  match h with
  | .declare .var p => r.pattern .assign p
  | .declare kind p =>
    declareLexicals [.declare kind [.mk p none ⟨0, 0⟩]] false
    r.pattern .init p
  | .assign p => r.pattern .assign p

/-- `for` over the names of an object's properties. -/
def emitForIn (r : Rules) (h : ForHead) (e : Expr) (body : Stmt) (labels : List String) :
    Compiling Unit := do
  let start ← newLabel
  let exit ← newLabel
  resetCompletion
  r.expr e
  emit .forInStart
  inside .value do
    placeLabel start
    emit (.forInNext exit)
    enterScope false
    emitHead r h
    let next ← newLabel
    inLoop labels exit next (r.stmt body [])
    placeLabel next
    leaveScope
    emit (.loop start 2)
    placeLabel exit
  emit .pop

/-- `for` over the elements of something. -/
def emitForOf (r : Rules) (h : ForHead) (e : Expr) (body : Stmt) (isAwait : Bool) (pos : Pos)
    (labels : List String) : Compiling Unit := do
  let start ← newLabel
  let exhausted ← newLabel
  let broken ← newLabel
  let done ← newLabel
  resetCompletion
  r.expr e
  mark pos
  emit (.iterStart isAwait true)
  inside (.iterator isAwait) do
    placeLabel start
    if isAwait then
      emit .iterCallNext
      emit .await
      emit (.iterResult exhausted)
    else emit (.iterNext exhausted)
    enterScope false
    emitHead r h
    let next ← newLabel
    inLoop labels broken next (r.stmt body [])
    placeLabel next
    leaveScope
    emit (.loop start 2)
    placeLabel broken
    emitLeave (.iterator isAwait) 0
    emit (.jump done)
    placeLabel exhausted
    emit .iterDrop
    placeLabel done

/-! ## Other statements -/

def emitSwitch (r : Rules) (e : Expr) (cases : List Case) (labels : List String) :
    Compiling Unit := do
  let exit ← newLabel
  let value ← newLocal
  resetCompletion
  r.expr e
  emit (.putLocal value)
  enterScope true
  let all := cases.flatMap fun c => match c with | .mk _ ss => ss
  declareLexicals all false
  declareVars ((functionsIn all).map functionName) false
  emitHoisted r all
  let starts ← cases.mapM fun c => do
    let l ← newLabel
    match c with
    | .mk (some test) _ =>
      emit (.getLocal value)
      r.expr test
      emit (.binary .strictEq)
      emit (.jumpIfTrue l)
    | .mk none _ => pure ()
    return l
  let default := (cases.zip starts).findSome? fun (c, l) =>
    match c with
    | .mk none _ => some l
    | _ => none
  emit (.jump (default.getD exit))
  inside (.target labels true exit none) do
    (cases.zip starts).forM fun (c, l) => do
      let .mk _ ss := c
      placeLabel l
      ss.forM fun s => r.stmt s []
  leaveScope
  placeLabel exit

/-- A `catch` clause, with what was thrown on the stack. -/
def emitCatch (r : Rules) (h : Language.Handler) : Compiling Unit := do
  let .mk param body := h
  enterScope false
  match param with
  | some p =>
    declareVars (patternNames p) false
    r.pattern .init p
  | none => emit .pop
  emitBlock r body
  leaveScope

/-- `try` with `catch`, or a block without. -/
def emitGuarded (r : Rules) (body : List Stmt) (handler : Option Language.Handler) :
    Compiling Unit := do
  match handler with
  | none => emitBlock r body
  | some h =>
    let caught ← newLabel
    let done ← newLabel
    emit (.pushHandler caught)
    inside .handler (emitBlock r body)
    emit .popHandler
    emit (.jump done)
    placeLabel caught
    emitCatch r h
    placeLabel done

def emitTry (r : Rules) (body : List Stmt) (handler : Option Language.Handler)
    (final : Option (List Stmt)) :
    Compiling Unit := do
  resetCompletion
  match final with
  | none => emitGuarded r body handler
  | some ss =>
    let caught ← newLabel
    let finally_ ← newLabel
    let done ← newLabel
    emit (.pushHandler caught)
    inside (.finally finally_) (emitGuarded r body handler)
    emit .popHandler
    emit (.push .undefined)
    emit (.gosub finally_)
    emit .pop
    emit (.jump done)
    placeLabel caught
    emit (.gosub finally_)
    emit .throw
    placeLabel finally_
    inside .finishing do
      match (← current).completion with
      | some c =>
        let saved ← newLocal
        emit (.getLocal c)
        emit (.putLocal saved)
        resetCompletion
        emitBlock r ss
        emit (.getLocal saved)
        emit (.putLocal c)
      | none => emitBlock r ss
    emit .ret
    placeLabel done

def emitStmt (r : Rules) (s : Stmt) (labels : List String) : Compiling Unit := do
  match s with
  | .empty | .debugger | .function _ => pure ()
  | .expr e _ =>
    match (← current).completion with
    | some c =>
      r.expr e
      emit (.putLocal c)
    | none => r.effect e
  | .declare kind ds => emitDeclarators r kind ds
  | .class c =>
    r.classDef c ""
    match c with
    | .mk (some x) .. => emitFirst x
    | _ => emit .pop
  | .ret e _ =>
    match e with
    | some e => r.expr e
    | none => emit (.push .undefined)
    if ← inAsyncGenerator then emit .await
    emitReturn
  | .ifElse test yes no =>
    let other ← newLabel
    resetCompletion
    r.expr test
    emit (.jumpIfFalse other)
    r.stmt yes []
    match no with
    | none => placeLabel other
    | some no =>
      let done ← newLabel
      emit (.jump done)
      placeLabel other
      r.stmt no []
      placeLabel done
  | .whileLoop test body => emitWhile r test body labels
  | .doWhile body test => emitDoWhile r body test labels
  | .forLoop init test update body => emitFor r init test update body labels
  | .forIn h e body _ => emitForIn r h e body labels
  | .forOf h e body isAwait pos => emitForOf r h e body isAwait pos labels
  | .breakTo label => do
    let f ← current
    emitBreak label true f.controls
    change fun g => { g with controls := f.controls }
  | .continueTo label => do
    let f ← current
    emitBreak label false f.controls
    change fun g => { g with controls := f.controls }
  | .throw e _ =>
    r.expr e
    emit .throw
  | .tryCatch body handler final => emitTry r body handler final
  | .switch e cases => emitSwitch r e cases labels
  | .labelled label s =>
    let isLoop : Bool :=
      match s with
      | .whileLoop .. | .doWhile .. | .forLoop .. | .forIn .. | .forOf .. | .labelled .. => true
      | _ => false
    if isLoop then r.stmt s (label :: labels)
    else
      let exit ← newLabel
      inside (.target (label :: labels) false exit none) (r.stmt s [])
      placeLabel exit
  | .block ss => emitBlock r ss
  | .exportDefault e =>
    emitNamed r "default" e
    emitFirst "*default*"

/-- The compilations for sources nested up to some levels. -/
def rules : Nat → Rules
  | 0 => .exhausted
  | n + 1 =>
    { expr := fun e => emitExpr (rules n) e
      effect := fun e => emitEffect (rules n) e
      stmt := fun s labels => emitStmt (rules n) s labels
      pattern := fun b p => emitPattern (rules n) b p
      function := fun f name selfName => functionCode (rules n) f name selfName
      classDef := fun c name => emitClass (rules n) c name }

def nestingLimit : Nat := 3000

end ScriptSandbox.Compile
