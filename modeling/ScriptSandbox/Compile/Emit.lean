import ScriptSandbox.Language.Lexer
import ScriptSandbox.Machine.Code

/-!
# Emitting code

The compiler works on one function at a time and keeps the ones around it at hand, because a name
that a function does not declare is looked for there. A variable whose name occurs in an inner
function lives in a cell; an inner function that mentions it takes the cell over, and so does every
function in between.

Jumps are emitted with the number of a label; when a function is finished, the numbers are replaced
by the places of the labels.
-/

namespace ScriptSandbox.Compile

open ScriptSandbox.Language

/-- Where a variable lives. -/
inductive Place where
  | local (i : Nat)
  | cell (i : Nat)
  deriving Inhabited

/-- How a variable came about. -/
inductive VariableKind where
  | var
  | lexical
  | const
  /-- The name of a function expression inside itself: assignments to it are passed over, or fail in
  strict code. -/
  | selfName
  deriving BEq, Inhabited

/-- A variable. -/
structure Variable where
  name : String
  place : Place
  kind : VariableKind
  /-- Whether it may have no value yet where it is used. -/
  checked : Bool
  deriving Inhabited

/-- A block of variables. -/
structure Scope where
  vars : List Variable := []
  /-- Whether code may skip a declaration and go on behind it. -/
  skips : Bool := false
  deriving Inhabited

/-- A construct around a statement that a jump out of it has to leave properly. -/
inductive Control where
  /-- Where `break` and `continue` with some labels, or with none, lead. -/
  | target (labels : List String) (plain : Bool) (breakTo : Nat) (continueTo : Option Nat)
  | handler
  /-- A `finally` block that is to be run. -/
  | finally (label : Nat)
  /-- A `finally` block that is running, with two values on the stack. -/
  | finishing
  | iterator (isAsync : Bool)
  /-- A value on the stack. -/
  | value
  deriving Inhabited

/-- A function under construction. -/
structure FunctionState where
  name : String := ""
  kind : FunctionKind := .plain
  isAsync : Bool := false
  isGenerator : Bool := false
  strict : Bool := true
  /-- Names that occur in the functions inside. -/
  inner : List String := []
  hasEval : Bool := false
  isModule : Bool := false
  ops : Array Op := #[]
  places : Array Pos := #[]
  pos : Pos := ⟨1, 1⟩
  /-- The places of the labels. -/
  labels : Array Nat := #[]
  scopes : List Scope := [{}]
  /-- Variables taken over from the functions around. -/
  captured : List Variable := []
  captures : Array (Nat × Nat) := #[]
  locals : Nat := 0
  cells : Nat := 0
  functions : Array Code := #[]
  evalScopes : Array (List VisibleName) := #[]
  controls : List Control := []
  /-- Where the chains around with optional links end. -/
  chainExits : List Nat := []
  /-- Where the value of the last statement is kept, if it is wanted. -/
  completion : Option Nat := none
  deriving Inhabited

namespace FunctionState

/-- Whether a function takes `this` from where it was made. -/
def isArrow (f : FunctionState) : Bool :=
  match f.kind with
  | .arrow => true
  | _ => false

def reaches (f : FunctionState) (name : String) : Bool := f.hasEval || f.inner.contains name

def lookup? (f : FunctionState) (name : String) : Option Variable :=
  (f.scopes.findSome? fun s => s.vars.find? (·.name == name)).or
    (f.captured.find? (·.name == name))

end FunctionState

/-- The state of the compiler. -/
structure State where
  file : String
  current : FunctionState := {}
  outer : List FunctionState := []

abbrev Compiling (α : Type) : Type := EStateM SourceFault State α

def tooDeep : SourceFault :=
  { message := "stack overflow", line := 1, column := 0, tooDeep := true }

@[inline] def current : Compiling FunctionState := do return (← get).current

@[inline] def change (f : FunctionState → FunctionState) : Compiling Unit :=
  modify fun s => { s with current := f s.current }

def emit (op : Op) : Compiling Unit :=
  change fun f => { f with ops := f.ops.push op, places := f.places.push f.pos }

/-- Sets the place in the source that the following instructions belong to. -/
def mark (p : Pos) : Compiling Unit :=
  if p.line == 0 then pure () else change fun f => { f with pos := p }

def newLabel : Compiling Nat :=
  modifyGet fun s =>
    (s.current.labels.size,
      { s with current := { s.current with labels := s.current.labels.push 0 } })

def placeLabel (l : Nat) : Compiling Unit :=
  change fun f => { f with labels := f.labels.setIfInBounds l f.ops.size }

def newLocal : Compiling Nat :=
  modifyGet fun s =>
    (s.current.locals, { s with current := { s.current with locals := s.current.locals + 1 } })

def newCellPlace : Compiling Nat :=
  modifyGet fun s =>
    (s.current.cells, { s with current := { s.current with cells := s.current.cells + 1 } })

/-! ## Variables -/

def addVariable (v : Variable) : Compiling Unit :=
  change fun f =>
    match f.scopes with
    | [] => f
    | s :: ss => { f with scopes := { s with vars := v :: s.vars } :: ss }

/-- Declares a name in the innermost block, with its first value: none for lexical names. -/
def declare (name : String) (kind : VariableKind) (inCell : Bool) : Compiling Variable := do
  let f ← current
  let lexical := kind == .lexical || kind == .const
  let v : Variable ←
    if inCell || f.reaches name then do
      let i ← newCellPlace
      if !f.isModule || f.scopes.length > 1 then
        emit (.newCell i (if lexical then .hole else .undefined))
      pure ⟨name, .cell i, kind, lexical⟩
    else do
      let i ← newLocal
      if lexical then emit (.clearLocal i)
      pure ⟨name, .local i, kind, lexical⟩
  addVariable v
  return v

/-- Begins a block. -/
def enterScope (skips : Bool) : Compiling Unit :=
  change fun f => { f with scopes := { skips } :: f.scopes }

/-- Ends a block. -/
def leaveScope : Compiling Unit := change fun f => { f with scopes := f.scopes.tail }

/-- Notes that a variable of the function has a value from here on. -/
def markReady (name : String) : Compiling Unit :=
  change fun f =>
    let rec go : List Scope → List Scope
      | [] => []
      | s :: ss =>
        if s.vars.any (·.name == name) then
          if s.skips then s :: ss
          else
            { s with vars := s.vars.map fun v =>
              if v.name == name then { v with checked := false } else v }
              :: ss
        else s :: go ss
    { f with scopes := go f.scopes }

/-- Finds the variable that a name means; functions between the one that declares it and the
innermost take its cell over. -/
def resolveIn (name : String) : List FunctionState → Option (Variable × List FunctionState)
  | [] => none
  | f :: fs =>
    match f.lookup? name with
    | some v => some (v, f :: fs)
    | none =>
      match resolveIn name fs with
      | none => none
      | some (v, fs) =>
        match v.place with
        | .local _ => none
        | .cell p =>
          let checked := v.kind == .lexical || v.kind == .const
          let v : Variable := ⟨name, .cell f.cells, v.kind, checked⟩
          some (v,
            { f with
              cells := f.cells + 1
              captures := f.captures.push (f.cells, p)
              captured := v :: f.captured } :: fs)

/-- The variable that a name means; there is none for global names. -/
def resolve (name : String) : Compiling (Option Variable) := do
  let s ← get
  match s.current.lookup? name with
  | some v => return some v
  | none =>
    match resolveIn name (s.current :: s.outer) with
    | some (v, f :: fs) =>
      set { s with current := f, outer := fs }
      return some v
    | _ => return none

def emitGet (v : Variable) : Compiling Unit :=
  match v.place, v.checked with
  | .local i, true => emit (.getLocalChecked i v.name)
  | .local i, false => emit (.getLocal i)
  | .cell i, true => emit (.getCellChecked i v.name)
  | .cell i, false => emit (.getCell i)

/-- Gives a variable the value on top of the stack, which is removed. -/
def emitInit (v : Variable) : Compiling Unit :=
  match v.place with
  | .local i => emit (.putLocal i)
  | .cell i => emit (.putCell i)

/-- Assigns the value on top of the stack, which is removed, to a variable. -/
def emitPut (v : Variable) : Compiling Unit := do
  if v.checked then
    match v.place with
    | .local i => emit (.checkLocal i v.name)
    | .cell i => emit (.checkCell i v.name)
  match v.kind with
  | .const => emit (.failReadOnly v.name)
  | .selfName => if (← current).strict then emit (.failReadOnly v.name) else emit .pop
  | _ => emitInit v

def emitName (name : String) : Compiling Unit := do
  match ← resolve name with
  | some v => emitGet v
  | none => if name == "undefined" then emit (.push .undefined) else emit (.getGlobal name)

/-- Assigns the value on top of the stack, which is removed, to a name. -/
def emitAssignName (name : String) : Compiling Unit := do
  match ← resolve name with
  | some v => emitPut v
  | none => emit (.putGlobal name (← current).strict)

/-- Pushes `this`. -/
def emitThis : Compiling Unit := do
  let f ← current
  match f.kind with
  | .arrow | .derivedConstructor =>
    match ← resolve "this" with
    | some v => emitGet v
    | none => emit .pushThis
  | _ => emit .pushThis

def emitNewTarget : Compiling Unit := do
  if (← current).isArrow then
    match ← resolve "new.target" with
    | some v => emitGet v
    | none => emit .pushNewTarget
  else emit .pushNewTarget

/-! ## Functions -/

def enterFunction (f : FunctionState) : Compiling Unit :=
  modify fun s => { s with current := f, outer := s.current :: s.outer }

/-- The code of a finished function, but for what is known from its source. -/
def codeOf (file : String) (f : FunctionState) : Code :=
  { name := f.name
    kind := f.kind
    isAsync := f.isAsync
    isGenerator := f.isGenerator
    strict := f.strict
    ops := f.ops.map (Op.redirect fun l => f.labels.getD l 0)
    places := f.places
    file
    source := ""
    arity := 0
    params := 0
    keepsArgs := true
    locals := f.locals
    captures := f.captures
    cells := f.cells
    functions := f.functions
    scopes := f.evalScopes }

/-- Ends a function, and gives its code. -/
def leaveFunction : Compiling Code :=
  modifyGet fun s =>
    let code := codeOf s.file s.current
    match s.outer with
    | [] => (code, { s with current := {} })
    | f :: fs => (code, { s with current := f, outer := fs })

/-- Adds the code of an inner function, and gives its number. -/
def addFunction (c : Code) : Compiling Nat :=
  modifyGet fun s =>
    (s.current.functions.size,
      { s with current := { s.current with functions := s.current.functions.push c } })

/-- All names that can be reached here, without repetition. -/
def visibleNames (fs : List FunctionState) : List String :=
  let all := fs.flatMap fun f =>
    f.scopes.flatMap (fun s => s.vars.map (·.name)) ++ f.captured.map (·.name)
  all.foldl (fun acc x => if acc.contains x then acc else x :: acc) []

/-- Notes the variables that code for `eval` can reach here. -/
def newEvalScope : Compiling Nat := do
  let s ← get
  let names := visibleNames (s.current :: s.outer)
  let visible ← names.filterMapM fun name => do
    match ← resolve name with
    | some v =>
      match v.place with
      | .cell i => return some (VisibleName.mk name i v.checked (v.kind == .const))
      | .local _ => return none
    | none => return none
  let n := (← current).evalScopes.size
  change fun f => { f with evalScopes := f.evalScopes.push visible }
  return n

/-! ## Jumps out of constructs -/

def inside {α : Type} (c : Control) (act : Compiling α) : Compiling α := do
  change fun f => { f with controls := c :: f.controls }
  let a ← act
  change fun f => { f with controls := f.controls.tail }
  return a

/-- Leaves a construct, with some values on the stack that are kept. -/
def emitLeave (c : Control) (above : Nat) : Compiling Unit := do
  match c with
  | .target .. => pure ()
  | .handler => emit .popHandler
  | .finally l =>
    emit .popHandler
    if above == 0 then emit (.push .undefined)
    emit (.gosub l)
    if above == 0 then emit .pop
  | .finishing =>
    if above == 0 then
      emit .pop
      emit .pop
    else
      emit .nip
      emit .nip
  | .iterator false => emit (.iterClose above)
  | .iterator true =>
    emit (.iterCallReturn above)
    emit .await
    emit .checkReturned
  | .value => if above == 0 then emit .pop else emit .nip

/-- Leaves all constructs around, innermost first, with the value to be returned on the stack. -/
def emitLeaveAll : List Control → Compiling Unit
  | [] => pure ()
  | c :: cs => do
    change fun f => { f with controls := cs }
    emitLeave c 1
    emitLeaveAll cs

def emitReturn : Compiling Unit := do
  let f ← current
  emitLeaveAll f.controls
  change fun g => { g with controls := f.controls }
  match f.kind with
  | .derivedConstructor =>
    match ← resolve "this" with
    | some v =>
      match v.place with
      | .local i => emit (.getLocal i)
      | .cell i => emit (.getCell i)
    | none => emit .pushThis
    emit .checkConstructed
  | _ => pure ()
  emit .return

/-- Whether a jump leads to a construct, and where. -/
def targetOf (label : Option String) (isBreak : Bool) : Control → Option Nat
  | .target labels plain breakTo continueTo =>
    let meant :=
      match label with
      | some l => labels.contains l
      | none => plain && (isBreak || continueTo.isSome)
    if !meant then none else if isBreak then some breakTo else continueTo
  | _ => none

def emitBreak (label : Option String) (isBreak : Bool) : List Control → Compiling Unit
  | [] => pure ()
  | c :: cs => do
    match targetOf label isBreak c with
    | some l => emit (.jump l)
    | none =>
      change fun f => { f with controls := cs }
      emitLeave c 0
      emitBreak label isBreak cs

end ScriptSandbox.Compile
