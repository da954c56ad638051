import ScriptSandbox.Compile.Expression

/-!
# Functions and classes

The code of a function begins with what has to be there before its first statement: what inner
functions may want to know about this run, the parameters, the variables, and the functions declared
in it. A class is a constructor whose prototype holds the methods; its fields are set up by a
function of their own.
-/

namespace ScriptSandbox.Compile

open ScriptSandbox.Language

def simpleParam? : Param → Option String
  | .one (.name x _) none false => some x
  | _ => none

/-- How many parameters there are before the first that is optional. -/
def arityOf (params : List Param) : Nat :=
  (params.takeWhile fun p => match p with | .one _ default rest => default.isNone && !rest).length

/-- Declares a variable that has the value of an instruction from the start. -/
def declareValue (name : String) (kind : VariableKind) (op : Op) : Compiling Unit := do
  let v ← declare name kind false
  emit op
  emitInit v

/-- Declares what a run of a function knows about itself, for the functions inside. -/
def declareOwn (f : FunctionState) (selfName : Option String) (takesArguments : Bool) :
    Compiling Unit := do
  match selfName with
  | some x => declareValue x .selfName .pushCallee
  | none => pure ()
  if !f.isArrow then
    match f.kind with
    | .derivedConstructor => let _ ← declare "this" .lexical false
    | _ => if f.reaches "this" then declareValue "this" .var .pushThis
    if f.reaches "new.target" then declareValue "new.target" .var .pushNewTarget
    if takesArguments then declareValue "arguments" .var .argumentsObject
  match f.kind with
  | .constructor =>
    emit .pushThis
    emit .initFields
    emit .pop
  | _ => pure ()

/-- Declares parameters that are just names; their values are in the first places. -/
def declareSimpleParams (names : List String) : Compiling Unit :=
  (names.zipIdx).forM fun (x, i) => do
    if (← current).reaches x then
      let c ← newCellPlace
      emit (.newCell c .undefined)
      emit (.getLocal i)
      emit (.putCell c)
      addVariable ⟨x, .cell c, .var, false⟩
    else addVariable ⟨x, .local i, .var, false⟩

def declareParams (r : Rules) (params : List Param) : Compiling Unit := do
  params.forM fun p => match p with
    | .one p _ _ => declareVars (patternNames p) false
  (params.zipIdx).forM fun (p, i) =>
    match p with
    | .one p default rest => do
      emit (if rest then .restArgs i else .getArg i)
      emitDefault r (patternName p) default
      r.pattern .init p

/-- Gives the functions declared in a block their values. -/
def emitHoisted (r : Rules) (ss : List Stmt) : Compiling Unit :=
  (functionsIn ss).forM fun f => do
    let name := functionName f
    emitFunction r f (if name == "*default*" then "default" else name) none
    match ← resolve name with
    | some v => emitInit v
    | none => emit (.defineGlobal name)

/-- The statements of a block, in a scope of their own. -/
def emitBlock (r : Rules) (ss : List Stmt) : Compiling Unit := do
  enterScope false
  declareLexicals ss false
  declareVars ((functionsIn ss).map functionName) false
  emitHoisted r ss
  ss.forM fun s => r.stmt s []
  leaveScope

def functionCode (r : Rules) (f : Function) (name : String) (selfName : Option String) :
    Compiling Code := do
  let .mk _ kind isAsync isGenerator strict params body inner hasEval usesArguments source pos := f
  let simple := params.mapM simpleParam?
  let count := match simple with
    | some xs => xs.length
    | none => 0
  let state : FunctionState :=
    { name, kind, isAsync, isGenerator, strict, inner, hasEval, pos, locals := count }
  enterFunction state
  let takesArguments := !state.isArrow && (usesArguments || state.reaches "arguments")
  declareOwn state selfName takesArguments
  match simple with
  | some xs => declareSimpleParams xs
  | none => declareParams r params
  declareVars (varNames body) false
  declareVars ((functionsIn body).map functionName) false
  declareLexicals body false
  emitHoisted r body
  if isGenerator then emit .initialYield
  body.forM fun s => r.stmt s []
  emit (.push .undefined)
  emitReturn
  let code ← leaveFunction
  return { code with
    source
    arity := arityOf params
    params := count
    keepsArgs := takesArguments || simple.isNone }

/-! ## Classes -/

def defaultConstructor (derived : Bool) (name source : String) (pos : Pos) : Compiling Code := do
  let kind : FunctionKind := if derived then .derivedConstructor else .constructor
  enterFunction { name, kind, pos }
  if derived then
    emit .pushNewTarget
    emit (.restArgs 0)
    emit .superConstruct
    emit .initFields
  else
    emit .pushThis
    emit .initFields
  emit .return
  let code ← leaveFunction
  return { code with source, isClass := true }

/-- A part of a class that is set up later on: a field, a private method, or a static block. -/
inductive Part where
  /-- A field with a fixed name. -/
  | field (name : Str) (value : Option Expr)
  /-- A field with the key in a variable. -/
  | computedField (holder : String) (value : Option Expr)
  | hiddenField (name : String) (value : Option Expr)
  /-- A private method, which is in a variable. -/
  | hiddenMethod (name : String) (kind : DefineKind) (holder : String)
  | block (f : Function)

def emitFieldValue (r : Rules) (name : String) (value : Option Expr) : Compiling Unit :=
  match value with
  | some e => emitNamed r name e
  | none => emit (.push .undefined)

/-- Sets up a part of the object that `this` stands for. -/
def emitPart (r : Rules) (p : Part) : Compiling Unit := do
  emitThis
  match p with
  | .field name value =>
    emitFieldValue r name.toLossy value
    emit (.defineField (.ofStr name))
    emit .pop
  | .computedField x value =>
    emitName x
    emitFieldValue r "" value
    emit .defineIndex
    emit .pop
  | .hiddenField x value =>
    emitHidden x
    emitFieldValue r ("#" ++ x) value
    emit .addPrivate
    emit .pop
  | .hiddenMethod x kind holder =>
    emitHidden x
    emitName holder
    emit (.addPrivateMethod kind)
    emit .pop
  | .block f =>
    emitFunction r f "" none
    emit .setHome
    emit (.callMethod 0)
    emit .pop

def partsCode (r : Rules) (name : String) (parts : List Part) (pos : Pos) : Compiling Code := do
  enterFunction { name, kind := .fields, pos, inner := ["this", "new.target"] }
  declareValue "this" .var .pushThis
  parts.forM (emitPart r)
  emit (.push .undefined)
  emit .return
  leaveFunction

def hiddenNames (members : List Member) : List String :=
  (members.filterMap fun m =>
    match m with
    | .entry (.hidden x) .. => some x
    | _ => none).eraseDups

/-- A member of a class, which is on the stack with its prototype on top; gives the part that is
left to be set up, and whether it belongs to the class itself. -/
def emitClassMember (r : Rules) (m : Member) (number : Nat) : Compiling (Option (Bool × Part)) := do
  match m with
  | .block f => return some (true, .block f)
  | .entry name .field isStatic value _ =>
    match name with
    | .fixed s => return some (isStatic, .field s value)
    | .hidden x => return some (isStatic, .hiddenField x value)
    | .computed k =>
      let holder := "%key" ++ toString number
      let v ← declare holder .var true
      r.expr k
      emit .toKey
      emitInit v
      return some (isStatic, .computedField holder value)
  | .entry name kind isStatic (some (.function f)) _ =>
    if isStatic then emit .swap
    let part ←
      match name with
      | .fixed s => do
        emitFunction r f (methodName kind s.toLossy) none
        emit (.defineMethod (.ofStr s) (defineKindOf kind) false)
        pure none
      | .computed k => do
        r.expr k
        emit .toKey
        emitFunction r f "" none
        emit .setNameOfKey
        emit (.defineMethodIndex (defineKindOf kind) false)
        pure none
      | .hidden x => do
        let holder := "%method" ++ toString number
        let v ← declare holder .var true
        emitFunction r f (methodName kind ("#" ++ x)) none
        emit .setHome
        emitInit v
        pure (some (isStatic, Part.hiddenMethod x (defineKindOf kind) holder))
    if isStatic then emit .swap
    return part
  | _ => return none

/-- Whether a part is a private method, which is there before all fields. -/
def isHiddenMethod : Part → Bool
  | .hiddenMethod .. => true
  | _ => false

/-- Private methods first, then the rest in order. -/
def methodsFirst (parts : List Part) : List Part :=
  parts.filter isHiddenMethod ++ parts.filter (!isHiddenMethod ·)

def emitClass (r : Rules) (c : ClassTree) (hint : String) : Compiling Unit := do
  let .mk name parent ctor members source pos := c
  let strict := (← current).strict
  change fun f => { f with strict := true }
  enterScope false
  let self ←
    match name with
    | some x => some <$> declare x .const true
    | none => pure none
  (hiddenNames members).forM fun x => do
    let v ← declare ("#" ++ x) .var true
    emit (.newPrivate ("#" ++ x))
    emitInit v
  match parent with
  | some e => r.expr e
  | none => emit (.push .hole)
  let title := name.getD hint
  let code ←
    match ctor with
    | some f => do
      let code ← r.function f title none
      pure { code with isClass := true, source }
    | none => defaultConstructor parent.isSome title source pos
  emit (.makeClass (← addFunction code))
  let parts ← (members.zipIdx).filterMapM fun (m, i) => emitClassMember r m i
  let own := (parts.filter (!·.1)).map (·.2)
  let static := (parts.filter (·.1)).map (·.2)
  if !own.isEmpty then
    let code ← partsCode r "<instance_members_initializer>" (methodsFirst own) pos
    emit (.closure (← addFunction code))
    emit .setFields
  emit .pop
  match self with
  | some v =>
    emit .dup
    emitInit v
  | none => pure ()
  if !static.isEmpty then
    let code ← partsCode r "<static_initializer>" (methodsFirst static) pos
    emit (.closure (← addFunction code))
    emit .runStatic
  leaveScope
  change fun f => { f with strict }

end ScriptSandbox.Compile
