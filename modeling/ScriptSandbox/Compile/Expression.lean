import ScriptSandbox.Compile.Declare

/-!
# Expressions

The code of an expression leaves its value on the stack. What leads back to itself, from
expressions to statements in functions and back, goes through `Rules`.
-/

namespace ScriptSandbox.Compile

open ScriptSandbox.Language

/-- What a pattern does with the values it takes apart. -/
inductive Binding where
  /-- Assigns them. -/
  | assign
  /-- Gives declared names their first values. -/
  | init
  deriving BEq

/-- Compilations that lead back to themselves. -/
structure Rules where
  expr : Expr → Compiling Unit
  /-- An expression whose value is not wanted. -/
  effect : Expr → Compiling Unit
  /-- A statement with its labels. -/
  stmt : Stmt → List String → Compiling Unit
  /-- Takes the value on top of the stack apart, and removes it. -/
  pattern : Binding → Pattern → Compiling Unit
  /-- The code of a function, by its name and perhaps the name it has for itself. -/
  function : Function → (name : String) → (selfName : Option String) → Compiling Code
  /-- A class with a name for lack of one of its own. -/
  classDef : ClassTree → (name : String) → Compiling Unit

def Rules.exhausted : Rules where
  expr _ := throw tooDeep
  effect _ := throw tooDeep
  stmt _ _ := throw tooDeep
  pattern _ _ := throw tooDeep
  function _ _ _ := throw tooDeep
  classDef _ _ := throw tooDeep

/-- An expression without the parentheses around it. -/
def bare : Expr → Expr
  | .paren e => bare e
  | e => e

def emitFunction (r : Rules) (f : Function) (name : String) (selfName : Option String) :
    Compiling Unit := do
  let code ← r.function f name selfName
  emit (.closure (← addFunction code))

/-- Pushes the value of an expression; a function or class without a name is given one. -/
def emitNamed (r : Rules) (name : String) (e : Expr) : Compiling Unit := do
  match bare e with
  | .function f => if (functionName f).isEmpty then emitFunction r f name none else r.expr e
  | .class c =>
    match c with
    | .mk none .. => r.classDef c name
    | _ => r.expr e
  | _ => r.expr e

/-! ## Lists -/

/-- Whether an argument or element is spread. -/
def isSpread : Item → Bool
  | .spread _ => true
  | _ => false

def emitArray (r : Rules) (items : List Item) : Compiling Unit := do
  let isPlain (i : Item) : Bool := match i with
    | .one _ => true
    | _ => false
  let start := items.takeWhile isPlain
  start.forM fun i => match i with
    | .one e => r.expr e
    | _ => pure ()
  emit (.newArray start.length)
  (items.dropWhile isPlain).forM fun i => do
    match i with
    | .hole => emit .arraySkip
    | .one e =>
      r.expr e
      emit .arrayAdd
    | .spread e =>
      r.expr e
      emit .arraySpread

/-- Pushes arguments; tells whether they are in one array. -/
def emitArgs (r : Rules) (args : List Item) : Compiling Bool := do
  if args.any isSpread then
    emitArray r args
    return true
  else
    args.forM fun i => match i with
      | .one e => r.expr e
      | _ => pure ()
    return false

/-! ## Chains -/

/-- Leaves the chain around, with undefined, if the value on top is undefined or null; some more
values are removed then. -/
def emitChainLink (below : Nat) : Compiling Unit := do
  let more ← newLabel
  emit (.jumpIfNotNullish more)
  (List.range below).forM fun _ => emit .pop
  let f ← current
  emit (.push .undefined)
  emit (.jump (f.chainExits.headD 0))
  placeLabel more

/-- Runs a compilation inside a chain, which ends at a label. -/
def inChain (exit : Nat) (act : Compiling Unit) : Compiling Unit := do
  change fun f => { f with chainExits := exit :: f.chainExits }
  act
  change fun f => { f with chainExits := f.chainExits.tail }

/-- Pushes the symbol for a private name. -/
def emitHidden (x : String) : Compiling Unit := do
  match ← resolve ("#" ++ x) with
  | some v => emitGet v
  | none =>
    throw
      { message := "undefined private field '#" ++ x ++ "'"
        line := 1
        column := 0
        placed := false }

/-- Pushes `this`, the home object, and a name. -/
def emitSuper (r : Rules) (name : PropName) : Compiling Unit := do
  emitThis
  emit .pushHome
  match name with
  | .fixed s => emit (.push (.str s))
  | .computed e => r.expr e
  | .hidden x => emitHidden x

/-- Pushes a function to be called, with what it is called on below it if there is such a thing;
tells whether there is. -/
def emitCallee (r : Rules) : Expr → Compiling Bool
  | .member o name pos => do
    r.expr o
    match name with
    | .fixed s =>
      mark pos
      emit (.getFieldKeep (.ofStr s))
    | .computed e =>
      r.expr e
      mark pos
      emit .getIndexKeep
    | .hidden x =>
      emitHidden x
      mark pos
      emit .getPrivateKeep
    return true
  | .superMember name pos => do
    emitThis
    emitSuper r name
    mark pos
    emit .superGet
    return true
  | .optional e => do
    let isMethod ← emitCallee r e
    emitChainLink (if isMethod then 1 else 0)
    return isMethod
  | .paren (.member o name pos) => do
    emitCallee r (.member o name pos)
  | e => do
    r.expr e
    return false

def emitCall (r : Rules) (callee : Expr) (args : List Item) (pos : Pos) : Compiling Unit := do
  match callee with
  | .name "eval" _ =>
    if !(args.any isSpread) then
      emitName "eval"
      let _ ← emitArgs r args
      let scope ← newEvalScope
      mark pos
      emit (.callEval args.length scope)
      return
  | _ => pure ()
  let spreads := args.any isSpread
  let hasBase : Bool :=
    match callee with
    | .member .. | .superMember .. | .paren (.member ..) | .optional (.member ..)
    | .optional (.superMember ..) => true
    | _ => false
  if spreads && !hasBase then emit (.push .undefined)
  let isMethod ← emitCallee r callee
  let _ ← emitArgs r args
  mark pos
  if spreads then emit .callSpread
  else if isMethod then emit (.callMethod args.length)
  else emit (.call args.length)

/-! ## Assignments -/

/-- What an assignment needs on the stack below the value. -/
inductive Target where
  | name (x : String)
  /-- An object. -/
  | field (k : Key)
  /-- An object and a key. -/
  | index
  /-- `this`, a home object and a key. -/
  | super
  /-- An object and a private name. -/
  | hidden
  | pattern (p : Pattern)

/-- Pushes what an assignment needs. -/
def emitTarget (r : Rules) : Pattern → Compiling Target
  | .name x pos => do
    mark pos
    return .name x
  | .member (.member o name pos) => do
    r.expr o
    match name with
    | .fixed s =>
      mark pos
      return .field (.ofStr s)
    | .computed e =>
      r.expr e
      mark pos
      return .index
    | .hidden x =>
      emitHidden x
      mark pos
      return .hidden
  | .member (.superMember name pos) => do
    emitSuper r name
    mark pos
    return .super
  | p => return .pattern p

/-- Assigns the value on top of the stack and removes it with what the assignment needed; a copy of
it is left if it is wanted. -/
def emitStore (r : Rules) (t : Target) (keep : Bool) : Compiling Unit := do
  let strict := (← current).strict
  match t with
  | .name x =>
    if keep then emit .dup
    emitAssignName x
  | .field k =>
    if keep then emit .insert2
    emit (.putField k strict)
  | .index =>
    if keep then emit .insert3
    emit (.putIndex strict)
  | .super =>
    if keep then emit .insert4
    emit .superPut
  | .hidden =>
    if keep then emit .insert3
    emit .putPrivate
  | .pattern p =>
    if keep then emit .dup
    r.pattern .assign p

/-- Pushes the value of what is to be assigned to, above what the assignment needs. -/
def emitLoad (t : Target) : Compiling Unit := do
  match t with
  | .name x => emitName x
  | .field k => emit (.getFieldKeep k)
  | .index => emit .getIndexKeepBoth
  | .super =>
    let k ← newLocal
    emit (.setLocal k)
    emitThis
    emit .pushHome
    emit (.getLocal k)
    emit .superGet
  | .hidden => emit .getPrivateKeepBoth
  | .pattern _ => emit (.push .undefined)

/-- The name that an assignment gives a function without one. -/
def targetName : Target → String
  | .name x => x
  | _ => ""

/-- How many values an assignment needs below the value. -/
def Target.width : Target → Nat
  | .name _ | .pattern _ => 0
  | .field _ => 1
  | .index | .hidden => 2
  | .super => 3

def emitAssign (r : Rules) (p : Pattern) (e : Expr) (keep : Bool) : Compiling Unit := do
  let t ← emitTarget r p
  match t with
  | .name x => emitNamed r x e
  | _ => r.expr e
  emitStore r t keep

def emitAssignWith (r : Rules) (op : BinaryOp) (p : Pattern) (e : Expr) (pos : Pos) (keep : Bool) :
    Compiling Unit := do
  let t ← emitTarget r p
  emitLoad t
  r.expr e
  mark pos
  emit (.binary op)
  emitStore r t keep

def emitAssignLogical (r : Rules) (op : LogicalOp) (p : Pattern) (e : Expr) (keep : Bool) :
    Compiling Unit := do
  let t ← emitTarget r p
  emitLoad t
  let skip ← newLabel
  let done ← newLabel
  match op with
  | .and => emit (.jumpIfFalseKeep skip)
  | .or => emit (.jumpIfTrueKeep skip)
  | .nullish => emit (.jumpIfNotNullish skip)
  emitNamed r (targetName t) e
  emitStore r t keep
  emit (.jump done)
  placeLabel skip
  (List.range t.width).forM fun _ => emit .nip
  if !keep then emit .pop
  placeLabel done

def emitUpdate (r : Rules) (p : Pattern) (by_ : Int) (before : Bool) (pos : Pos) (keep : Bool) :
    Compiling Unit := do
  let t ← emitTarget r p
  emitLoad t
  mark pos
  if before || !keep then
    emit (.increment by_)
    emitStore r t keep
  else
    emit .toNumeric
    match t with
    | .name _ =>
      emit .dup
      emit (.increment by_)
      emitStore r t false
    | _ =>
      let old ← newLocal
      emit (.setLocal old)
      emit (.increment by_)
      emitStore r t false
      emit (.getLocal old)

/-! ## Objects -/

def methodName (kind : MemberKind) (name : String) : String :=
  match kind with
  | .getter => "get " ++ name
  | .setter => "set " ++ name
  | _ => name

def defineKindOf : MemberKind → DefineKind
  | .getter => .getter
  | .setter => .setter
  | _ => .value

/-- A member of an object literal; the object is on top of the stack. -/
def emitMember (r : Rules) (m : Member) : Compiling Unit := do
  match m with
  | .spread e =>
    r.expr e
    emit .copyProperties
  | .entry name .value _ (some e) pos =>
    match name with
    | .fixed s =>
      let shorthand : Bool := match e with
        | .name _ p => p == pos
        | _ => false
      if s == Str.ofString "__proto__" && !shorthand then
        r.expr e
        emit .setProto
      else
        emitNamed r s.toLossy e
        emit (.defineField (.ofStr s))
    | .computed k =>
      r.expr k
      emit .toKey
      match bare e with
      | .function f =>
        r.expr e
        if (functionName f).isEmpty then emit .setNameOfKey
      | _ => r.expr e
      emit .defineIndex
    | .hidden _ => pure ()
  | .entry name kind _ (some (.function f)) _ =>
    match name with
    | .fixed s =>
      emitFunction r f (methodName kind s.toLossy) none
      emit (.defineMethod (.ofStr s) (defineKindOf kind) true)
    | .computed k =>
      r.expr k
      emit .toKey
      emitFunction r f "" none
      emit .setNameOfKey
      emit (.defineMethodIndex (defineKindOf kind) true)
    | .hidden _ => pure ()
  | _ => pure ()

/-! ## Generators -/

/-- Whether the function under construction is an asynchronous generator. -/
def inAsyncGenerator : Compiling Bool := do
  let f ← current
  return f.isAsync && f.isGenerator

/-- Returns from a generator with the value on top of the stack, if it was resumed so. -/
def emitResumed : Compiling Unit := do
  let more ← newLabel
  emit (.jumpIfFalse more)
  if ← inAsyncGenerator then emit .await
  emitReturn
  placeLabel more

def emitYield (r : Rules) (e : Option Expr) : Compiling Unit := do
  match e with
  | some e => r.expr e
  | none => emit (.push .undefined)
  if ← inAsyncGenerator then emit .await
  emit .yield
  emitResumed

/-- `yield*`. -/
def emitDelegate (r : Rules) (e : Expr) : Compiling Unit := do
  let isAsync ← inAsyncGenerator
  let start ← newLabel
  let done ← newLabel
  let returned ← newLabel
  let finish ← newLabel
  r.expr e
  emit (.iterStart isAsync false)
  emit (.push .undefined)
  emit (.push (.int 0))
  placeLabel start
  emit .delegateCall
  if isAsync then emit .await
  emit (.delegateResult isAsync done returned)
  emit .yieldDelegated
  emit (.loop start 1)
  placeLabel returned
  emit .nip
  emit .nip
  emitReturn
  placeLabel done
  emit .nip
  emit .nip
  emit (.jump finish)
  placeLabel finish

/-! ## Expressions -/

def emitDelete (r : Rules) (e : Expr) : Compiling Unit := do
  let strict := (← current).strict
  let member (o : Expr) (name : PropName) : Compiling Unit := do
    r.expr o
    match name with
    | .fixed s => emit (.push (.str s))
    | .computed k => r.expr k
    | .hidden x => emitHidden x
    emit (.deleteIndex strict)
  match bare e with
  | .member o name _ => member o name
  | .chain (.member o name _) =>
    let exit ← newLabel
    let done ← newLabel
    inChain exit (member o name)
    emit (.jump done)
    placeLabel exit
    emit .pop
    emit (.push (.bool true))
    placeLabel done
  | .name x _ =>
    match ← resolve x with
    | some _ => emit (.push (.bool false))
    | none => emit (.deleteGlobal x)
  | e =>
    r.effect e
    emit (.push (.bool true))

/-- A template literal: the pieces and values are joined by the method `concat` of the first. -/
def emitTemplate (r : Rules) (parts : List Str) (exprs : List Expr) : Compiling Unit := do
  match parts, exprs with
  | first :: rest, _ :: _ =>
    emit (.push (.str first))
    emit (.getFieldKeep (.named "concat"))
    let pairs := exprs.zip rest
    let counts ← pairs.mapM fun (e, s) => do
      r.expr e
      if s.length == 0 then return 1
      emit (.push (.str s))
      return 2
    emit (.callMethod (counts.foldr (· + ·) 0))
  | parts, _ => emit (.push (.str (parts.headD Str.empty)))

/-- Pushes the value of an expression. -/
def emitExpr (r : Rules) (e : Expr) : Compiling Unit := do
  match e with
  | .undefined => emit (.push .undefined)
  | .null => emit (.push .null)
  | .bool b => emit (.push (.bool b))
  | .number x => emit (.push (.ofFloat x))
  | .bigint n => emit (.push (.big n))
  | .string s => emit (.push (.str s))
  | .regex r pos =>
    mark pos
    emit (.regex r)
  | .template parts exprs => emitTemplate r parts exprs
  | .tagged tag cooked raw exprs pos =>
    let isMethod ← emitCallee r tag
    mark pos
    emit (.templateObject cooked raw)
    exprs.forM r.expr
    mark pos
    emit (if isMethod then .callMethod (exprs.length + 1) else .call (exprs.length + 1))
  | .name x pos =>
    mark pos
    emitName x
  | .this _ => emitThis
  | .newTarget => emitNewTarget
  | .importMeta => emit .importMeta
  | .array items => emitArray r items
  | .object members =>
    emit .newObject
    members.forM (emitMember r)
  | .function f =>
    let name := functionName f
    emitFunction r f name (if name.isEmpty then none else some name)
  | .class c => r.classDef c ""
  | .unary .delete e _ => emitDelete r e
  | .unary .typeof e _ =>
    match bare e with
    | .name x pos =>
      mark pos
      match ← resolve x with
      | some v => emitGet v
      | none => emit (.getGlobalMaybe x)
    | e => r.expr e
    emit .typeOf
  | .unary .void e _ =>
    r.effect e
    emit (.push .undefined)
  | .unary op e pos =>
    match op, e with
    | .neg, .number x => emit (.push (.ofFloat (-x)))
    | op, e =>
      r.expr e
      mark pos
      emit (.unary op)
  | .update p by_ before pos => emitUpdate r p by_ before pos true
  | .binary op a b pos =>
    r.expr a
    r.expr b
    mark pos
    emit (.binary op)
  | .logical op a b =>
    let skip ← newLabel
    r.expr a
    match op with
    | .and => emit (.jumpIfFalseKeep skip)
    | .or => emit (.jumpIfTrueKeep skip)
    | .nullish => emit (.jumpIfNotNullish skip)
    r.expr b
    placeLabel skip
  | .assign p e _ => emitAssign r p e true
  | .assignWith op p e pos => emitAssignWith r op p e pos true
  | .assignLogical op p e _ => emitAssignLogical r op p e true
  | .cond test yes no =>
    let other ← newLabel
    let done ← newLabel
    r.expr test
    emit (.jumpIfFalse other)
    r.expr yes
    emit (.jump done)
    placeLabel other
    r.expr no
    placeLabel done
  | .seq a b =>
    r.effect a
    r.expr b
  | .member o name pos =>
    r.expr o
    match name with
    | .fixed s =>
      mark pos
      emit (.getField (.ofStr s))
    | .computed e =>
      r.expr e
      mark pos
      emit .getIndex
    | .hidden x =>
      emitHidden x
      mark pos
      emit .getPrivate
  | .superMember name pos =>
    emitSuper r name
    mark pos
    emit .superGet
  | .call callee args pos => emitCall r callee args pos
  | .new callee args pos =>
    r.expr callee
    let spreads ← emitArgs r args
    mark pos
    emit (if spreads then .constructSpread else .construct args.length)
  | .superCall args pos =>
    emitNewTarget
    emitArray r args
    mark pos
    emit .superConstruct
    match ← resolve "this" with
    | some v =>
      match v.place with
      | .local i => emit (.checkFreshLocal i)
      | .cell i => emit (.checkFreshCell i)
      emit .dup
      emitInit v
    | none => pure ()
    emit .initFields
  | .importCall e pos =>
    r.expr e
    mark pos
    emit .importCall
  | .yield (some e) true _ => emitDelegate r e
  | .yield e _ _ => emitYield r e
  | .await e pos =>
    r.expr e
    mark pos
    emit .await
  | .optional e =>
    r.expr e
    emitChainLink 0
  | .chain e =>
    let exit ← newLabel
    inChain exit (r.expr e)
    placeLabel exit
  | .paren e => r.expr e
  | .hasHidden x e =>
    r.expr e
    emitHidden x
    emit .hasPrivate

/-- Evaluates an expression whose value is not wanted. -/
def emitEffect (r : Rules) (e : Expr) : Compiling Unit := do
  match e with
  | .assign p e _ => emitAssign r p e false
  | .assignWith op p e pos => emitAssignWith r op p e pos false
  | .assignLogical op p e _ => emitAssignLogical r op p e false
  | .update p by_ before pos => emitUpdate r p by_ before pos false
  | .seq a b =>
    r.effect a
    r.effect b
  | .paren e => r.effect e
  | e =>
    r.expr e
    emit .pop

/-! ## Patterns -/

/-- Takes a default value if the value on top of the stack is undefined. -/
def emitDefault (r : Rules) (name : String) (e : Option Expr) : Compiling Unit := do
  match e with
  | none => pure ()
  | some e =>
    let given ← newLabel
    emit (.jumpIfDefined given)
    emitNamed r name e
    placeLabel given

def patternName : Pattern → String
  | .name x _ => x
  | _ => ""

/-- Gives a declared name its first value, which is on top of the stack. -/
def emitFirst (x : String) : Compiling Unit := do
  match ← resolve x with
  | some v =>
    emitInit v
    markReady x
  | none => emit (.initGlobal x)

/-- Pushes what an element's target needs, when it is assigned to. -/
def emitElementTarget (r : Rules) (b : Binding) (p : Pattern) : Compiling Target :=
  match b with
  | .assign => emitTarget r p
  | .init => return .pattern p

/-- Stores an element, which is on top of the stack. -/
def emitElement (r : Rules) (b : Binding) (t : Target) : Compiling Unit :=
  match t with
  | .pattern p => r.pattern b p
  | t => emitStore r t false

def emitArrayPattern (r : Rules) (b : Binding) (items : List PatternItem) (rest : Option Pattern) :
    Compiling Unit := do
  emit (.iterStart false true)
  inside (.iterator false) do
    items.forM fun i => do
      match i with
      | .hole =>
        emit (.iterStep 0)
        emit .pop
      | .one p default =>
        let t ← emitElementTarget r b p
        emit (.iterStep t.width)
        emitDefault r (patternName p) default
        emitElement r b t
    match rest with
    | none => pure ()
    | some p =>
      let t ← emitElementTarget r b p
      emit (.iterRest t.width)
      emitElement r b t
  emit (.iterClose 0)

def emitObjectPattern (r : Rules) (b : Binding) (entries : List PatternEntry)
    (rest : Option Pattern) : Compiling Unit := do
  emit .needObject
  let source ← newLocal
  emit (.putLocal source)
  let keys ← entries.mapM fun e => do
    match e with
    | .entry name p default pos =>
      let key : Option Key ⊕ Nat ←
        match name with
        | .fixed s => pure (.inl (some (Key.ofStr s)))
        | .computed k => do
          r.expr k
          emit .toKey
          let place ← newLocal
          emit (.putLocal place)
          pure (.inr place)
        | .hidden _ => pure (.inl none)
      let t ← emitElementTarget r b p
      emit (.getLocal source)
      match key with
      | .inl (some k) =>
        mark pos
        emit (.getField k)
      | .inl none => pure ()
      | .inr place =>
        emit (.getLocal place)
        emit .getIndex
      emitDefault r (patternName p) default
      emitElement r b t
      return key
  match rest with
  | none => pure ()
  | some p =>
    let t ← emitElementTarget r b p
    emit (.getLocal source)
    keys.forM fun k =>
      match k with
      | .inl (some k) => emit (.push k.value)
      | .inl none => emit (.push .undefined)
      | .inr place => emit (.getLocal place)
    emit (.objectRest keys.length)
    emit .nip
    emitElement r b t

/-- Takes the value on top of the stack apart, and removes it. -/
def emitPattern (r : Rules) (b : Binding) (p : Pattern) : Compiling Unit := do
  match p with
  | .name x pos =>
    match b with
    | .init => emitFirst x
    | .assign =>
      mark pos
      emitAssignName x
  | .member e =>
    let t ← emitTarget r (.member e)
    match t with
    | .field k =>
      emit .swap
      emit (.putField k (← current).strict)
    | .index =>
      emit .rotate3
      emit (.putIndex (← current).strict)
    | .hidden =>
      emit .rotate3
      emit .putPrivate
    | _ => emit .pop
  | .array items rest => emitArrayPattern r b items rest
  | .object entries rest => emitObjectPattern r b entries rest

end ScriptSandbox.Compile
