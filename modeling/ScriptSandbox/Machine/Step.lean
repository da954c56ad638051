import ScriptSandbox.Machine.Closure
import ScriptSandbox.Machine.Operator

/-!
# Steps

What each instruction does to the run of a function. An instruction that may run other code, or
fail, leaves the frame among those that wait while it is at work (`waiting`), so that traces show it
and a failure finds it there.
-/

namespace ScriptSandbox.Exec

/-- What follows an instruction. -/
inductive Next where
  | go (fr : Frame)
  | stop (p : Pause)

@[noinline] def takeFrame : Exec Frame :=
  modifyGet fun m =>
    match m.frames.back? with
    | some (.code fr) => (fr, { m with frames := m.frames.pop })
    | _ => (default, m)

@[inline] def waiting {α : Type} (fr : Frame) (act : Exec α) : Exec (α × Frame) := do
  modify fun m => { m with frames := m.frames.push (.code fr) }
  let a ← act
  let fr ← takeFrame
  return (a, fr)

@[inline] def pushing (fr : Frame) (act : Exec Value) : Exec Next := do
  let (v, fr) ← waiting fr act
  return .go (fr.push v)

/-- Goes on after an operation. -/
@[inline] def running (fr : Frame) (act : Exec Unit) : Exec Next := do
  let (_, fr) ← waiting fr act
  return .go fr

/-! ## Interruptions -/

/-- Throws what stops the guest. -/
def interrupt {α : Type} : Exec α := do
  let v ← makeError .internalError "interrupted"
  match v with
  | .obj a => setKind a (.error true)
  | _ => pure ()
  throwValue v

/-- Whether more memory is in use than the budget allows. -/
def overBudget : Exec Bool := do
  let m ← get
  match m.memory.budget with
  | none => return false
  | some budget =>
    if m.memory.charged ≤ budget then return false
    let memory := m.measured
    modify fun m => { m with memory }
    if memory.charged ≤ budget then return false
    modify fun m => { m with memory := { m.memory with tripped := true } }
    return true

/-- Frees what is no longer in use, if there is much and nothing is hidden. -/
def sweep : Exec Unit :=
  modify fun m =>
    if m.memory.pins == 0 && m.freePlaces.isEmpty
        && m.heap.size + m.cells.size > m.memory.sweepAt then m.collect
    else m

def poll : Exec Unit := do
  modify fun m =>
    { m with
      interrupts := { m.interrupts with
        countdown := m.interrupts.every
        polls := m.interrupts.polls + 1 } }
  let i := (← get).interrupts
  if i.killed then interrupt
  if ← overBudget then interrupt
  match i.deadline with
  | some n =>
    if i.polls > n then
      modify fun m => { m with interrupts := { m.interrupts with expired := true, killed := true } }
      interrupt
  | none => pure ()
  match i.budget with
  | some n => if i.polls > n then interrupt
  | none => pure ()
  sweep

/-- Whether the interrupt handler is to be polled after some steps; counts them if not. -/
@[inline] def due (steps : Nat) : Exec Bool :=
  modifyGet fun m =>
    if m.interrupts.countdown ≤ steps then (true, m)
    else
      (false,
        { m with interrupts := { m.interrupts with countdown := m.interrupts.countdown - steps } })

/-! ## Variables -/

/-- Fails because a variable has no value yet. -/
def notInitialized {α : Type} (name : String) : Exec α :=
  raise .referenceError (shortName name ++ " is not initialized")

def notDefined {α : Type} (name : String) : Exec α :=
  raise .referenceError ("'" ++ shortName name ++ "' is not defined")

/-- Fails because a constant cannot be assigned to. -/
def readOnly {α : Type} (name : String) : Exec α :=
  typeError ("'" ++ shortName name ++ "' is read-only")

def getGlobal (name : String) (maybe : Bool) : Exec Value := do
  let m ← get
  match m.lexicals[name]? with
  | some l =>
    let v ← getCell l.cell
    if v.isHole then notInitialized name
    return v
  | none =>
    let k := Key.ofString name
    let g := Intrinsic.global.address
    match (← getObj g).props.get? k with
    | some (.data v ..) => return v
    | _ =>
      if ← hasProperty g k then getProp g k
      else if maybe then return .undefined
      else notDefined name

def putGlobal (name : String) (v : Value) (strict : Bool) : Exec Unit := do
  let m ← get
  match m.lexicals[name]? with
  | some l =>
    if (← getCell l.cell).isHole then notInitialized name
    if l.isConst then readOnly name
    setCell l.cell v
  | none =>
    let k := Key.ofString name
    let g := Intrinsic.global.address
    if strict && !(← hasProperty g k) then notDefined name
    putValue (.obj g) k v strict

def initGlobal (name : String) (v : Value) : Exec Unit := do
  match (← get).lexicals[name]? with
  | some l => setCell l.cell v
  | none => putGlobal name v false

def defineGlobalFunction (name : String) (v : Value) : Exec Unit := do
  let k := Key.ofString name
  let g := Intrinsic.global.address
  match ← getOwn g k with
  | some p =>
    if p.configurable then defineOrThrow g k (.ofProperty (.data v true true false))
    else defineOrThrow g k { value := some v }
  | none => defineOrThrow g k (.ofProperty (.data v true true false))

/-! ## Properties -/

/-- A value as an element of a value, by a key that is no string yet. -/
def getElement (o k : Value) : Exec Value := do
  match o, k with
  | .obj a, .int n =>
    if n ≥ 0 then
      match (← getObj a).kind with
      | .array items _ =>
        match items[n.toNat]? with
        | some .hole | none => getFrom chainLimit a (.index n.toNat) o
        | some v => return v
      | _ => getFrom chainLimit a (.index n.toNat) o
    else getFrom chainLimit a (intKey n) o
  | o, k =>
    if o.isNullish then
      let name ← keyText (← match k with
        | .obj _ => pure (Key.named "")
        | k => toKey k)
      typeError ("cannot read property '" ++ name ++ "' of " ++ nullishName o)
    getValue o (← toKey k)

def putElement (o k v : Value) (strict : Bool) : Exec Unit := do
  match o, k with
  | .obj a, .int n =>
    if n ≥ 0 then
      let o ← getObj a
      let i := n.toNat
      let isNew : Bool :=
        match o.kind with
        | .array items _ => i == items.size && o.extensible
        | _ => false
      if isNew && o.proto == some Intrinsic.arrayPrototype.address then
        chargeElement i
        modifyObj a fun o => putDense o i v
      else putValue (.obj a) (.index i) v strict
    else putValue (.obj a) (intKey n) v strict
  | o, k =>
    if o.isNullish then
      let name ← keyText (← match k with
        | .obj _ => pure (Key.named "")
        | k => toKey k)
      typeError ("cannot set property '" ++ name ++ "' of " ++ nullishName o)
    putValue o (← toKey k) v strict

def deleteElement (o k : Value) (strict : Bool) : Exec Value := do
  let key ← toKey k
  let a ← toObject o
  if ← deleteProp a key then return .bool true
  else if strict then typeError "could not delete property"
  else return .bool false

/-- The object that members of a method's parent are looked for in. -/
def superBase (home : Value) : Exec (Option Nat) := do
  match home with
  | .obj h => prototypeOf h
  | _ => return none

/-- A member of a method's parent. -/
def superGet (this home k : Value) : Exec Value := do
  let key ← toKey k
  match ← superBase home with
  | some p => getFrom chainLimit p key this
  | none => return .undefined

/-- Assigns to a member of a method's parent. -/
def superPut (this home k v : Value) : Exec Unit := do
  let key ← toKey k
  match ← superBase home with
  | some p =>
    match ← setFrom chainLimit p key v this with
    | none => return
    | some r => throwRefusal key r
  | none => return

def defineMethod (o : Value) (k : Key) (f : Value) (kind : DefineKind) (enumerable : Bool) :
    Exec Unit := do
  match o, f with
  | .obj a, .obj m =>
    modifyClosure m fun c => { c with home := some a }
    let d : Descriptor :=
      match kind with
      | .value => { value := some f, writable := some true }
      | .getter => { get := some f }
      | .setter => { set := some f }
    defineOrThrow a k { d with enumerable := some enumerable, configurable := some true }
  | _, _ => return

def nameAfter (k f : Value) : Exec Unit := do
  match f with
  | .obj a =>
    match ← closure? a with
    | some c =>
      let name ← nameOfKey (← toKey k)
      let name :=
        match c.code.kind with
        | .getter => Str.ofString "get " ++ name
        | .setter => Str.ofString "set " ++ name
        | _ => name
      modifyClosure a fun c => { c with code := { c.code with name := name.toLossy } }
      modifyObj a fun o =>
        { o with props := o.props.put (Key.named "name") (fixedProperty (.str name)) }
    | none => return
  | _ => return

/-! ## Private names -/

def hiddenKey : Value → Key
  | .sym i => .hidden i
  | _ => .hidden 0

def getPrivate (o n : Value) : Exec Value := do
  let k := hiddenKey n
  match o with
  | .obj a =>
    match (← getObj a).props.get? k with
    | some (.data v ..) => return v
    | some (.accessor g ..) =>
      if g.isObject then call g o #[] else typeError "no getter for private member"
    | none => typeError ("private class field '" ++ (← keyText k) ++ "' does not exist")
  | _ => typeError "not an object"

def putPrivate (o n v : Value) : Exec Unit := do
  let k := hiddenKey n
  match o with
  | .obj a =>
    match (← getObj a).props.get? k with
    | some (.data _ true e c) =>
      modifyObj a fun o => { o with props := o.props.put k (.data v true e c) }
    | some (.data ..) => typeError ("'" ++ (← keyText k) ++ "' is read-only")
    | some (.accessor _ s ..) =>
      if s.isObject then let _ ← call s o #[v] else typeError "no setter for property"
    | none => typeError ("private class field '" ++ (← keyText k) ++ "' does not exist")
  | _ => typeError "not an object"

def addPrivate (o n v : Value) (writable : Bool) : Exec Unit := do
  let k := hiddenKey n
  match o with
  | .obj a =>
    if (← getObj a).props.has k then
      typeError ("private class field '" ++ (← keyText k) ++ "' already exists")
    modifyObj a fun o => { o with props := o.props.push k (.data v writable false false) }
  | _ => typeError "not an object"

def addPrivateMethod (o n f : Value) (kind : DefineKind) : Exec Unit := do
  let k := hiddenKey n
  match o, kind with
  | _, .value => addPrivate o n f false
  | .obj a, kind =>
    let (g, s) : Value × Value :=
      match (← getObj a).props.get? k with
      | some (.accessor g s ..) => (g, s)
      | _ => (.undefined, .undefined)
    let p : Property :=
      match kind with
      | .getter => .accessor f s false false
      | _ => .accessor g f false false
    modifyObj a fun o => { o with props := o.props.put k p }
  | _, _ => typeError "not an object"

/-! ## Objects -/

def copyProperties (target : Nat) (source : Value) (except : List Key) : Exec Unit := do
  if source.isNullish then return
  let s ← toObject source
  for k in ← ownKeys s do
    if !(except.any (· == k)) then
      match ← getOwn s k with
      | some p =>
        if p.enumerable then createData target k (← getProp s k)
      | none => pure ()

/-- How many elements an array holds together. -/
@[noinline] def denseSize (a : Nat) : Exec Nat := do
  match (← getObj a).kind with
  | .array items _ => return items.size
  | _ => return 0

/-- Adds elements to an array. -/
def pushItem (a : Value) (v : Value) : Exec Unit := do
  match a with
  | .obj x =>
    chargeElement (← denseSize x)
    modifyObj x fun o =>
      match o with
      | ⟨proto, extensible, props, .array items length⟩ =>
        ⟨proto, extensible, props, .array (items.push v) (length + 1)⟩
      | o => o
  | _ => return

/-- The names of the properties that a loop lists, with the objects that hold them. -/
def listedNames : (fuel : Nat) → (seen : List Key) → Option Nat → Exec (List (Key × Nat))
  | 0, _, _ => return []
  | _, _, none => return []
  | fuel + 1, seen, some a => do
    let keys := (← ownKeys a).filter fun k => !k.isSymbol
    let fresh := keys.filter fun k => !seen.contains k
    let listed ← fresh.filterMapM fun k => do
      match ← getOwn a k with
      | some p => return if p.enumerable then some (k, a) else none
      | none => return none
    let next ← prototypeOf a
    match next with
    | none => return listed
    | some _ => return listed ++ (← listedNames fuel (keys ++ seen) next)

/-- Begins to list the names of a value's properties. -/
def forInStart (v : Value) : Exec Value := do
  let names ← if v.isNullish then pure [] else do listedNames chainLimit [] (some (← toObject v))
  let a ← alloc { kind := .forIn names }
  return .obj a

def nextName : List (Key × Nat) → Exec (Option (Key × List (Key × Nat)))
  | [] => return none
  | (k, a) :: rest => do
    if (← getOwn a k).isSome then return some (k, rest) else nextName rest

def forInNext (e : Value) : Exec (Option Value) := do
  match e with
  | .obj a =>
    match (← getObj a).kind with
    | .forIn names =>
      match ← nextName names with
      | some (k, rest) =>
        setKind a (.forIn rest)
        return some k.value
      | none => return none
    | _ => return none
  | _ => return none

/-- Makes all properties of an object permanent, and constant if asked for. -/
def fixAll (a : Nat) (constant : Bool) : Exec Unit := do
  if !(← preventExtensions a) then typeError "proxy preventExtensions handler returned false"
  for k in ← ownKeys a do
    match ← getOwn a k with
    | some (.data ..) =>
      defineOrThrow a k
        { configurable := some false, writable := if constant then some false else none }
    | some (.accessor ..) => defineOrThrow a k { configurable := some false }
    | none => pure ()

/-- A new array of pieces that a tag is called with; nothing about it can be changed. -/
def newTemplate (cooked : List (Option Str)) (raw : List Str) : Exec Value := do
  let r ← newArray ((raw.map Value.str).toArray)
  let c ← newArray ((cooked.map fun s => (s.map Value.str).getD .undefined).toArray)
  match c, r with
  | .obj a, .obj b =>
    fixAll b true
    let _ ← defineOwn a (.named "raw") (.ofProperty (.data r false false false))
    fixAll a true
    return c
  | _, _ => return c

/-- The array of pieces for the place that a frame has come to. -/
def templateObject (fr : Frame) (cooked : List (Option Str)) (raw : List Str) : Exec Value := do
  let file := fr.code.file
  let place := fr.code.placeAt (fr.pc - 1)
  let isHere (t : Template) : Bool := t.place == place && t.raw == raw && t.file == file
  match (← get).templates.find? isHere with
  | some t => return t.pieces
  | none =>
    let pieces ← newTemplate cooked raw
    modify fun m => { m with templates := ⟨file, place, raw, pieces⟩ :: m.templates }
    return pieces

/-! ## Calls -/

/-- Calls a function from code; its values are all where the machine can see them. -/
@[inline] def callPlain (f this : Value) (args : Array Value) : Exec Value :=
  fun c => c.call f this args

@[inline] def constructPlain (f : Value) (args : Array Value) (newTarget : Value) : Exec Value :=
  fun c => c.construct f args newTarget

/-- The elements of an array that the compiler has made. -/
def itemsOf (v : Value) : Exec (Array Value) := do
  match v with
  | .obj a =>
    match (← getObj a).kind with
    | .array items _ => return items.map fun v => if v.isHole then .undefined else v
    | _ => return #[]
  | _ => return #[]

/-- Sets up the fields of an object, for the class whose constructor runs. -/
def initFields (callee : Nat) (o : Value) : Exec Unit := do
  match ← closure? callee with
  | none => return
  | some c =>
    match ← closure? c.owner with
    | none => return
    | some k =>
      match k.fields with
      | some g =>
        let _ ← call (.obj g) o #[]
      | none => return

/-- Constructs what the parent of the running constructor's class constructs. -/
def superConstruct (callee : Nat) (target : Value) (args : Array Value) : Exec Value := do
  let owner ← match ← closure? callee with
    | some c => pure c.owner
    | none => pure callee
  match ← prototypeOf owner with
  | some p =>
    if !(← isConstructor (.obj p)) then typeError "not a constructor"
    constructPlain (.obj p) args target
  | none => typeError "not a constructor"

/-- The result of a constructor of a derived class. -/
def checkConstructed (v this : Value) : Exec Value := do
  if v.isObject then return v
  if !v.isUndefined then typeError "derived class constructor must return an object or undefined"
  if this.isHole then notInitialized "this"
  return this

/-- The address of a function that runs. -/
def homeOf (callee : Nat) : Exec Value := do
  match ← closure? callee with
  | some c => return (c.home.map Value.obj).getD .undefined
  | none => return .undefined

def isEval : Value → Bool
  | .obj a => a == Intrinsic.evalFunction.address
  | _ => false

/-- The modules' object with what a module knows about itself. -/
def importMeta (file : String) : Exec Value := do
  let m ← get
  match m.modules.findIdx? (·.name == file) with
  | none => return .undefined
  | some i =>
    match (m.modules[i]?).bind (·.metaObject) with
    | some a => return .obj a
    | none =>
      let a ← alloc {}
      modify fun m =>
        { m with modules := m.modules.modify i fun r => { r with metaObject := some a } }
      return .obj a

def importCall (file : String) (v : Value) : Exec Value := do
  let cap ← newCapability
  enqueue (.importModule cap file v)
  return cap.promise

/-! ## Iteration -/

/-- Passes what was sent on to another generator: the way its answer is to be taken, and the
answer. -/
def delegateCall (i n v : Value) (how : Int) : Exec (Int × Value) := do
  if how == 0 then return (0, ← call n i #[v])
  else if how == 1 then
    match ← getMethod i returnKey with
    | none => return (3, v)
    | some f => return (1, ← call f i #[v])
  else
    match ← getMethod i (.named "throw") with
    | some f => return (0, ← call f i #[v])
    | none =>
      closeIterator i
      typeError "iterator does not have a throw method"

/-- How the answer of another generator is to be taken. -/
inductive Delegated where
  | returned (v : Value)
  | done (v : Value)
  | yields (v : Value)

/-- Takes the answer of another generator. -/
def delegateResult (isAsync : Bool) (how : Int) (r : Value) : Exec Delegated := do
  if how == 3 then return .returned r
  if !r.isObject then typeError "iterator must return an object"
  if ← isDone r then
    let v ← getValue r valueKey
    return if how == 1 then .returned v else .done v
  else if isAsync then return .yields (← getValue r valueKey)
  else return .yields r

/-- The iterator that lies under some values, with its method. -/
@[inline] def iteratorUnder (fr : Frame) (above : Nat) : IteratorRecord :=
  ⟨fr.under (above + 1), fr.under above⟩

@[inline] def dropHandler (fr : Frame) : Frame := { fr with handlers := fr.handlers.tail }

@[inline] def addHandler (fr : Frame) (k : HandlerKind) : Frame :=
  { fr with handlers := ⟨k, fr.stack.size⟩ :: fr.handlers }

def removeIterator (fr : Frame) (above : Nat) : Frame :=
  dropHandler ((fr.remove above).remove above)

def restOf (r : IteratorRecord) : (fuel : Nat) → Array Value → Exec (Array Value)
  | 0, acc => return acc
  | fuel + 1, acc => do
    match ← iteratorStep r with
    | none => return acc
    | some v => restOf r fuel (acc.push v)

def stepIterator (fr : Frame) (op : Op) : Exec Next := do
  match op with
  | .iterStart isAsync guarded =>
    let v := fr.top
    let (r, fr) ← waiting fr.pop (if isAsync then asyncIteratorOf v else iteratorOf v)
    let fr := (fr.push r.iterator).push r.next
    return .go (if guarded then addHandler fr .iterator else fr)
  | .iterStep above =>
    let r := iteratorUnder fr above
    if r.iterator.isUndefined then return .go (fr.push .undefined)
    let (v, fr) ← waiting (fr.setUnder (above + 1) .undefined) (iteratorStep r)
    match v with
    | some v => return .go ((fr.setUnder (above + 1) r.iterator).push v)
    | none => return .go (fr.push .undefined)
  | .iterNext t =>
    let r := iteratorUnder fr 0
    let (v, fr) ← waiting (fr.setUnder 1 .undefined) (iteratorStep r)
    match v with
    | some v => return .go ((fr.setUnder 1 r.iterator).push v)
    | none => return .go (fr.goto t)
  | .iterRest above =>
    let r := iteratorUnder fr above
    let (v, fr) ← waiting (fr.setUnder (above + 1) .undefined) do
      if r.iterator.isUndefined then newArray #[]
      else do
        pin true
        let items ← restOf r elementLimit #[]
        pin false
        newArray items
    return .go (fr.push v)
  | .iterClose above =>
    let i := fr.under (above + 1)
    let fr := removeIterator fr above
    if i.isUndefined then return .go fr
    running fr (closeIterator i)
  | .iterDrop => return .go (removeIterator fr 0)
  | .iterCallNext =>
    let r := iteratorUnder fr 0
    pushing (dropHandler fr) (call r.next r.iterator #[])
  | .iterResult t =>
    let r := fr.top
    let (v, fr) ← waiting fr.pop do
      if !r.isObject then typeError "iterator must return an object"
      if ← isDone r then return none
      return some (← getValue r valueKey)
    let fr := addHandler fr .iterator
    match v with
    | some v => return .go (fr.push v)
    | none => return .go (fr.goto t)
  | .iterCallReturn above =>
    let i := fr.under (above + 1)
    pushing (removeIterator fr above) do
      match ← getMethod i returnKey with
      | some f => call f i #[]
      | none => return .hole
  | .checkReturned =>
    let r := fr.top
    running fr.pop do
      match r with
      | .obj _ | .hole => return
      | _ => typeError "not an object"
  | .forInStart =>
    let v := fr.top
    pushing fr.pop (forInStart v)
  | .forInNext t =>
    let e := fr.top
    let (v, fr) ← waiting fr (forInNext e)
    match v with
    | some v => return .go (fr.push v)
    | none => return .go (fr.goto t)
  | .delegateCall =>
    let v := fr.under 1
    let how : Int := match fr.top with
      | .int n => n
      | _ => 0
    let fr := fr.drop 2
    let i := fr.under 1
    let n := fr.top
    let ((how, r), fr) ← waiting fr (delegateCall i n v how)
    return .go ((fr.push (.int how)).push r)
  | .delegateResult isAsync done returned =>
    let r := fr.top
    let how : Int := match fr.under 1 with
      | .int n => n
      | _ => 0
    let (d, fr) ← waiting (fr.drop 2) (delegateResult isAsync how r)
    match d with
    | .returned v => return .go ((fr.push v).goto returned)
    | .done v => return .go ((fr.push v).goto done)
    | .yields v => return .go (fr.push v)
  | _ => return .go fr

/-! ## Other groups -/

/-- Instructions that read and write variables and may fail. -/
def stepVariable (fr : Frame) (op : Op) : Exec Next := do
  match op with
  | .getLocalChecked i name =>
    match fr.locals.getD i .undefined with
    | .hole => running fr (notInitialized name)
    | v => return .go (fr.push v)
  | .checkLocal i name =>
    match fr.locals.getD i .undefined with
    | .hole => running fr (notInitialized name)
    | _ => return .go fr
  | .getCellChecked i name =>
    match ← getCell (fr.cells.getD i 0) with
    | .hole => running fr (notInitialized name)
    | v => return .go (fr.push v)
  | .checkCell i name =>
    match ← getCell (fr.cells.getD i 0) with
    | .hole => running fr (notInitialized name)
    | _ => return .go fr
  | .newCell i v =>
    let c ← newCell v
    return .go { fr with cells := fr.cells.setIfInBounds i c }
  | .copyCell i =>
    let c ← newCell (← getCell (fr.cells.getD i 0))
    return .go { fr with cells := fr.cells.setIfInBounds i c }
  | .failReadOnly name => running fr (readOnly name)
  | .checkFreshLocal i =>
    if (fr.locals.getD i .undefined).isHole then return .go fr
    running fr (raise .referenceError "'this' can be initialized only once")
  | .checkFreshCell i =>
    if (← getCell (fr.cells.getD i 0)).isHole then return .go fr
    running fr (raise .referenceError "'this' can be initialized only once")
  | .getGlobal name =>
    match (← get).lexicals[name]? with
    | some l =>
      match ← getCell l.cell with
      | .hole => running fr (notInitialized name)
      | v => return .go (fr.push v)
    | none => pushing fr (getGlobal name false)
  | .getGlobalMaybe name => pushing fr (getGlobal name true)
  | .putGlobal name strict =>
    let v := fr.top
    running fr.pop (putGlobal name v strict)
  | .initGlobal name =>
    let v := fr.top
    running fr.pop (initGlobal name v)
  | .defineGlobal name =>
    let v := fr.top
    running fr.pop (defineGlobalFunction name v)
  | .deleteGlobal name =>
    pushing fr do
      if (← get).lexicals.contains name then return .bool false
      return .bool (← deleteProp Intrinsic.global.address (.ofString name))
  | _ => return .go fr

/-- Instructions that read and write properties. -/
def stepProperty (fr : Frame) (op : Op) : Exec Next := do
  match op with
  | .getField k =>
    let o := fr.top
    pushing fr.pop (getValue o k)
  | .getFieldKeep k =>
    let o := fr.top
    pushing fr (getValue o k)
  | .putField k strict =>
    let v := fr.top
    let o := fr.under 1
    running (fr.drop 2) (putValue o k v strict)
  | .getIndex =>
    let k := fr.top
    let o := fr.under 1
    pushing (fr.drop 2) (getElement o k)
  | .getIndexKeep =>
    let k := fr.top
    let o := fr.under 1
    pushing fr.pop (getElement o k)
  | .getIndexKeepBoth =>
    let k := fr.top
    let o := fr.under 1
    pushing fr (getElement o k)
  | .putIndex strict =>
    let v := fr.top
    let k := fr.under 1
    let o := fr.under 2
    running (fr.drop 3) (putElement o k v strict)
  | .superGet =>
    let k := fr.top
    let home := fr.under 1
    let this := fr.under 2
    pushing (fr.drop 3) (superGet this home k)
  | .superPut =>
    let v := fr.top
    let k := fr.under 1
    let home := fr.under 2
    let this := fr.under 3
    running (fr.drop 4) (superPut this home k v)
  | .deleteIndex strict =>
    let k := fr.top
    let o := fr.under 1
    pushing (fr.drop 2) (deleteElement o k strict)
  | .toKey =>
    let v := fr.top
    match v with
    | .int _ | .str _ | .sym _ => return .go fr
    | _ => pushing fr.pop do return (← toKey v).value
  | .needObject =>
    let v := fr.top
    if v.isNullish then running fr (typeError "cannot convert to object") else return .go fr
  | .getPrivate =>
    let n := fr.top
    let o := fr.under 1
    pushing (fr.drop 2) (getPrivate o n)
  | .getPrivateKeep =>
    let n := fr.top
    let o := fr.under 1
    pushing fr.pop (getPrivate o n)
  | .getPrivateKeepBoth =>
    let n := fr.top
    let o := fr.under 1
    pushing fr (getPrivate o n)
  | .putPrivate =>
    let v := fr.top
    let n := fr.under 1
    let o := fr.under 2
    running (fr.drop 3) (putPrivate o n v)
  | .hasPrivate =>
    let n := fr.top
    let o := fr.under 1
    pushing (fr.drop 2) do
      match o with
      | .obj a => return .bool ((← getObj a).props.has (hiddenKey n))
      | _ => typeError "invalid 'in' operand"
  | _ => return .go fr

@[inline] def objectUnder (fr : Frame) (above : Nat) : Nat :=
  ((fr.under above).address?).getD 0

def stepObject (fr : Frame) (op : Op) : Exec Next := do
  match op with
  | .defineField k =>
    let v := fr.top
    let a := objectUnder fr 1
    running fr.pop (createData a k v)
  | .defineIndex =>
    let v := fr.top
    let k := fr.under 1
    let a := objectUnder fr 2
    running (fr.drop 2) do createData a (← toKey k) v
  | .defineMethod k kind enumerable =>
    let f := fr.top
    let o := fr.under 1
    running fr.pop (defineMethod o k f kind enumerable)
  | .defineMethodIndex kind enumerable =>
    let f := fr.top
    let k := fr.under 1
    let o := fr.under 2
    running (fr.drop 2) do defineMethod o (← toKey k) f kind enumerable
  | .setProto =>
    let v := fr.top
    let a := objectUnder fr 1
    running fr.pop do
      match v with
      | .obj p => let _ ← setPrototype a (some p)
      | .null => let _ ← setPrototype a none
      | _ => return
  | .setNameOfKey =>
    let f := fr.top
    let k := fr.under 1
    running fr (nameAfter k f)
  | .newPrivate name =>
    let i ← newSymbol (some (Str.ofString name))
    return .go (fr.push (.sym i))
  | .addPrivate =>
    let v := fr.top
    let n := fr.under 1
    let o := fr.under 2
    running (fr.drop 2) (addPrivate o n v true)
  | .addPrivateMethod kind =>
    let f := fr.top
    let n := fr.under 1
    let o := fr.under 2
    running (fr.drop 2) (addPrivateMethod o n f kind)
  | .newObject =>
    let v ← newObject
    return .go (fr.push v)
  | .newArray n =>
    let items := fr.lastValues n
    let v ← newArray items
    return .go ((fr.drop n).push v)
  | .arrayAdd =>
    let v := fr.top
    let a := fr.under 1
    running fr.pop (pushItem a v)
  | .arraySkip =>
    let a := fr.top
    running fr (pushItem a .hole)
  | .arraySpread =>
    let v := fr.top
    let a := fr.under 1
    running fr.pop do
      for x in ← elementsOf v do
        pushItem a x
  | .copyProperties =>
    let v := fr.top
    let a := objectUnder fr 1
    running fr.pop do
      pin true
      copyProperties a v []
      pin false
  | .objectRest n =>
    let keys := fr.lastValues n
    let o := fr.under n
    pushing (fr.drop n) do
      let r ← newObject
      let ks ← keys.toList.mapM toKey
      pin true
      copyProperties ((r.address?).getD 0) o ks
      pin false
      return r
  | .regex r => pushing fr (newRegExp r)
  | .templateObject cooked raw => pushing fr (templateObject fr cooked raw)
  | .closure i =>
    match fr.code.functions[i]? with
    | some c =>
      let a ← closureIn fr c
      return .go (fr.push (.obj a))
    | none => return .go (fr.push .undefined)
  | .makeClass i =>
    let parent := fr.top
    match fr.code.functions[i]? with
    | some c =>
      let fr := fr.pop
      let ((f, p), fr) ← waiting fr (newClass fr c parent)
      return .go ((fr.push (.obj f)).push (.obj p))
    | none => return .go fr
  | .setFields =>
    let g := fr.top
    let home := objectUnder fr 1
    let f := objectUnder fr 2
    running fr.pop do
      match g with
      | .obj g =>
        modifyClosure g fun c => { c with home := some home }
        modifyClosure f fun c => { c with fields := some g }
      | _ => return
  | .runStatic =>
    let g := fr.top
    let f := fr.under 1
    running fr.pop do
      match g, f with
      | .obj a, .obj h => modifyClosure a fun c => { c with home := some h }
      | _, _ => return
      let _ ← call g f #[]
  | .setHome =>
    let g := objectUnder fr 0
    let home := objectUnder fr 1
    running fr (modifyClosure g fun c => { c with home := some home })
  | .initFields =>
    let o := fr.top
    let callee := fr.callee
    running fr (initFields callee o)
  | .restArgs i =>
    let v ← newArray (fr.args.extract i fr.args.size)
    return .go (fr.push v)
  | .argumentsObject =>
    let v ← newArguments fr.args fr.code.strict fr.callee
    return .go (fr.push v)
  | .pushHome =>
    let v ← homeOf fr.callee
    return .go (fr.push v)
  | .importMeta =>
    let file := fr.code.file
    pushing fr (importMeta file)
  | .importCall =>
    let v := fr.top
    let file := fr.code.file
    pushing fr.pop (importCall file v)
  | _ => return .go fr

def stepCall (fr : Frame) (op : Op) : Exec Next := do
  match op with
  | .call n =>
    let args := fr.lastValues n
    let f := fr.under n
    pushing (fr.drop (n + 1)) (callPlain f .undefined args)
  | .callMethod n =>
    let args := fr.lastValues n
    let f := fr.under n
    let o := fr.under (n + 1)
    pushing (fr.drop (n + 2)) (callPlain f o args)
  | .callSpread =>
    let a := fr.top
    let f := fr.under 1
    let o := fr.under 2
    pushing (fr.drop 3) do callPlain f o (← itemsOf a)
  | .construct n =>
    let args := fr.lastValues n
    let f := fr.under n
    pushing (fr.drop (n + 1)) (constructPlain f args f)
  | .constructSpread =>
    let a := fr.top
    let f := fr.under 1
    pushing (fr.drop 2) do constructPlain f (← itemsOf a) f
  | .superConstruct =>
    let a := fr.top
    let target := fr.under 1
    let callee := fr.callee
    pushing (fr.drop 2) do superConstruct callee target (← itemsOf a)
  | .callEval n scope =>
    let args := fr.lastValues n
    let f := fr.under n
    let fr := fr.drop (n + 1)
    if isEval f then pushing fr (evalDirect fr scope (args.getD 0 .undefined))
    else pushing fr (callPlain f .undefined args)
  | .checkConstructed =>
    let this := fr.top
    let v := fr.under 1
    pushing (fr.drop 2) (checkConstructed v this)
  | .throw =>
    let v := fr.top
    running fr.pop (addTrace v)
  | _ => return .go fr
where
  /-- Throws a value; an error that has lost its trace is given a new one. -/
  addTrace (v : Value) : Exec Unit := do
    match v with
    | .obj a =>
      match (← getObj a).kind with
      | .error _ =>
        if !(← getObj a).props.has (Key.named "stack") then
          let stack := traceOf (← get).frames 0
          modifyObj a fun o =>
            { o with props := o.props.push (Key.named "stack") (hiddenProperty (.ofString stack)) }
      | _ => pure ()
    | _ => pure ()
    throwValue v

/-- Instructions that compute. -/
def stepOperator (fr : Frame) (op : Op) : Exec Next := do
  match op with
  | .unary o =>
    let v := fr.top
    match o, v with
    | .not, v => return .go (fr.setTop (.bool (!v.truthy)))
    | o, v => pushing fr.pop (unary o v)
  | .binary o =>
    let b := fr.top
    let a := fr.under 1
    match o, a, b with
    | .strictEq, a, b => return .go (fr.pop.setTop (.bool (Value.strictEq a b)))
    | .strictNe, a, b => return .go (fr.pop.setTop (.bool (!Value.strictEq a b)))
    | .lt, .int m, .int n => return .go (fr.pop.setTop (.bool (m < n)))
    | .le, .int m, .int n => return .go (fr.pop.setTop (.bool (m ≤ n)))
    | .gt, .int m, .int n => return .go (fr.pop.setTop (.bool (m > n)))
    | .ge, .int m, .int n => return .go (fr.pop.setTop (.bool (m ≥ n)))
    | .add, .int m, .int n => return .go (fr.pop.setTop (.ofInt (m + n)))
    | .sub, .int m, .int n => return .go (fr.pop.setTop (.ofInt (m - n)))
    | .mul, .int m, .int n => return .go (fr.pop.setTop (Arithmetic.mulInts m n))
    | o, a, b => pushing (fr.drop 2) (binary o a b)
  | .increment by_ =>
    match fr.top with
    | .int n => return .go (fr.setTop (.ofInt (n + by_)))
    | v => pushing fr.pop (increment by_ v)
  | .toNumeric =>
    match fr.top with
    | .int _ | .num _ => return .go fr
    | v => pushing fr.pop (toNumeric v)
  | .typeOf =>
    let v := fr.top
    let s ← typeName v
    return .go (fr.setTop (.ofString s))
  | _ => return .go fr

/-- Instructions that move values and jump, and cannot fail. -/
def stepStack (fr : Frame) (op : Op) : Next :=
  match op with
  | .push v => .go (fr.push v)
  | .pop => .go fr.pop
  | .dup =>
    let v := fr.top
    .go (fr.push v)
  | .dup2 =>
    let a := fr.under 1
    let b := fr.top
    .go ((fr.push a).push b)
  | .swap =>
    let a := fr.under 1
    let b := fr.top
    .go ((fr.setTop a).setUnder 1 b)
  | .nip =>
    let v := fr.top
    .go (fr.pop.setTop v)
  | .rotate3 =>
    let a := fr.under 2
    let b := fr.under 1
    let c := fr.top
    .go (((fr.setTop a).setUnder 1 c).setUnder 2 b)
  | .insert2 =>
    let a := fr.under 1
    let b := fr.top
    .go (((fr.setTop a).setUnder 1 b).push b)
  | .insert3 =>
    let a := fr.under 2
    let b := fr.under 1
    let c := fr.top
    .go ((((fr.setTop b).setUnder 1 a).setUnder 2 c).push c)
  | .insert4 =>
    let a := fr.under 3
    let b := fr.under 2
    let c := fr.under 1
    let d := fr.top
    .go (((((fr.setTop c).setUnder 1 b).setUnder 2 a).setUnder 3 d).push d)
  | .pushThis =>
    let v := fr.thisValue
    .go (fr.push v)
  | .pushNewTarget =>
    let v := fr.newTarget
    .go (fr.push v)
  | .pushCallee =>
    let a := fr.callee
    .go (fr.push (.obj a))
  | .getArg i =>
    let v := fr.args.getD i .undefined
    .go (fr.push v)
  | .getLocal i =>
    let v := fr.locals.getD i .undefined
    .go (fr.push v)
  | .putLocal i =>
    let v := fr.top
    .go { fr with stack := fr.stack.pop, locals := fr.locals.setIfInBounds i v }
  | .setLocal i =>
    let v := fr.top
    .go { fr with locals := fr.locals.setIfInBounds i v }
  | .clearLocal i => .go { fr with locals := fr.locals.setIfInBounds i .hole }
  | .jump t => .go (fr.goto t)
  | .jumpIfFalse t =>
    let v := fr.top
    if v.truthy then .go fr.pop else .go (fr.pop.goto t)
  | .jumpIfTrue t =>
    let v := fr.top
    if v.truthy then .go (fr.pop.goto t) else .go fr.pop
  | .jumpIfFalseKeep t => if fr.top.truthy then .go fr.pop else .go (fr.goto t)
  | .jumpIfTrueKeep t => if fr.top.truthy then .go (fr.goto t) else .go fr.pop
  | .jumpIfNotNullish t => if fr.top.isNullish then .go fr.pop else .go (fr.goto t)
  | .jumpIfDefined t => if fr.top.isUndefined then .go fr.pop else .go (fr.goto t)
  | .pushHandler t => .go (addHandler fr (.resume t))
  | .popHandler => .go (dropHandler fr)
  | .gosub t =>
    let here := fr.pc
    .go ((fr.push (.int here)).goto t)
  | .ret =>
    match fr.top with
    | .int n => .go (fr.pop.goto n.toNat)
    | _ => .go fr.pop
  | .return =>
    let v := fr.top
    .stop (.returned v)
  | .initialYield => .stop (.started fr)
  | .yield | .yieldDelegated =>
    let v := fr.top
    .stop (.yielded v fr.pop)
  | .await =>
    let v := fr.top
    .stop (.awaited v fr.pop)
  | _ => .go fr

/-- One instruction. -/
def step (fr : Frame) (op : Op) : Exec Next := do
  match op with
  | .getCell i =>
    let v ← getCell (fr.cells.getD i 0)
    return .go (fr.push v)
  | .putCell i =>
    let v := fr.top
    setCell (fr.cells.getD i 0) v
    return .go fr.pop
  | .loop t n =>
    if ← due n then running (fr.goto t) poll else return .go (fr.goto t)
  | .unary _ | .binary _ | .increment _ | .toNumeric | .typeOf => stepOperator fr op
  | .call _ | .callMethod _ | .callSpread | .construct _ | .constructSpread | .superConstruct
  | .callEval .. | .checkConstructed | .throw => stepCall fr op
  | .getField _ | .getFieldKeep _ | .putField .. | .getIndex | .getIndexKeep | .getIndexKeepBoth
  | .putIndex _ | .superGet | .superPut | .deleteIndex _ | .toKey | .needObject | .getPrivate
  | .getPrivateKeep | .getPrivateKeepBoth | .putPrivate | .hasPrivate => stepProperty fr op
  | .getLocalChecked .. | .checkLocal .. | .getCellChecked .. | .checkCell .. | .newCell ..
  | .copyCell _ | .failReadOnly _ | .checkFreshLocal _ | .checkFreshCell _ | .getGlobal _
  | .getGlobalMaybe _ | .putGlobal .. | .initGlobal _ | .defineGlobal _ | .deleteGlobal _ =>
    stepVariable fr op
  | .iterStart .. | .iterStep _ | .iterNext _ | .iterRest _ | .iterClose _ | .iterDrop
  | .iterCallNext | .iterResult _ | .iterCallReturn _ | .checkReturned | .forInStart
  | .forInNext _ | .delegateCall | .delegateResult .. => stepIterator fr op
  | .defineField _ | .defineIndex | .defineMethod .. | .defineMethodIndex .. | .setProto
  | .setNameOfKey | .newPrivate _ | .addPrivate | .addPrivateMethod _ | .newObject | .newArray _
  | .arrayAdd | .arraySkip | .arraySpread | .copyProperties | .objectRest _ | .regex ..
  | .templateObject .. | .closure _ | .makeClass _ | .setFields | .runStatic | .setHome
  | .initFields | .restArgs _ | .argumentsObject | .pushHome | .importMeta | .importCall =>
    stepObject fr op
  | op => return stepStack fr op

end ScriptSandbox.Exec
