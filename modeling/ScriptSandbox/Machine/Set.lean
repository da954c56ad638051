import ScriptSandbox.Machine.Convert

/-!
# Changing properties

Defining, setting and deleting the properties of objects. A change that an object does not allow is
refused; whether that is an error is up to who asked for it.
-/

namespace ScriptSandbox

namespace Descriptor

/-- Whether a change is about a getter or a setter. -/
def isAccessor (d : Descriptor) : Bool := d.get.isSome || d.set.isSome

/-- Whether a change is about a value. -/
def isData (d : Descriptor) : Bool := d.value.isSome || d.writable.isSome

def ofProperty : Property → Descriptor
  | .data v w e c =>
    { value := some v, writable := some w, enumerable := some e, configurable := some c }
  | .accessor g s e c =>
    { get := some g, set := some s, enumerable := some e, configurable := some c }

/-- A new property; what is absent is false or undefined. -/
def fresh (d : Descriptor) : Property :=
  if d.isAccessor then
    .accessor (d.get.getD .undefined) (d.set.getD .undefined) (d.enumerable.getD false)
      (d.configurable.getD false)
  else
    .data (d.value.getD .undefined) (d.writable.getD false) (d.enumerable.getD false)
      (d.configurable.getD false)

def keepsFlag (flag : Option Bool) (b : Bool) : Bool := flag.getD b == b

def keepsValue (value : Option Value) (v : Value) : Bool :=
  match value with
  | some v' => v'.sameValue v
  | none => true

def allowedBy (d : Descriptor) (p : Property) : Bool :=
  if p.configurable then true
  else
    d.configurable != some true && keepsFlag d.enumerable p.enumerable
      && match p with
        | .data v w _ _ =>
          !d.isAccessor && (w || (d.writable != some true && keepsValue d.value v))
        | .accessor g s _ _ => !d.isData && keepsValue d.get g && keepsValue d.set s

def applyTo (d : Descriptor) (p : Property) : Property :=
  let e := d.enumerable.getD p.enumerable
  let c := d.configurable.getD p.configurable
  match p with
  | .data v w _ _ =>
    if d.isAccessor then .accessor (d.get.getD .undefined) (d.set.getD .undefined) e c
    else .data (d.value.getD v) (d.writable.getD w) e c
  | .accessor g s _ _ =>
    if d.isData then .data (d.value.getD .undefined) (d.writable.getD false) e c
    else .accessor (d.get.getD g) (d.set.getD s) e c

end Descriptor

namespace Exec

/-! ## Arrays -/

/-- Up to how many missing elements an array is given one beyond its last. -/
def gapLimit : Nat := 1024

/-- An array with its elements among its properties. -/
def sparseOf (o : Obj) (writable : Bool) : Obj :=
  match o.kind with
  | .array items length =>
    let entries := (itemKeys items).filterMap fun k =>
      match k with
      | .index i => (items[i]?).map fun v => (k, Property.plain v)
      | _ => none
    { o with
      kind := .sparse length writable
      props := .ofList (entries ++ o.props.entries.toList) }
  | _ => o

/-- An array of elements with one of them replaced, added, or put behind missing ones. -/
def putItem (items : Array Value) (i : Nat) (v : Value) : Array Value :=
  if i < items.size then items.setIfInBounds i v
  else (items ++ Array.replicate (i - items.size) Value.hole).push v

/-- Puts an element into an array whose elements are all ordinary. -/
def putDense (o : Obj) (i : Nat) (v : Value) : Obj :=
  match o with
  | ⟨proto, extensible, props, .array items length⟩ =>
    ⟨proto, extensible, props, .array (putItem items i v) (max length (i + 1))⟩
  | o => o

def toArrayLength (v : Value) : Exec Nat := do
  let n ← toUint32 v
  let x ← toNumber v
  if Numeral.ofInt n != x then rangeError "invalid array length"
  return n

/-- Shortens an array with its elements among its properties; the new length is where a property
that cannot be removed stops it. -/
def shortenSparse (o : Obj) (length new : Nat) (writable : Bool) : Obj × Bool :=
  let indices := (o.props.keys.filterMap fun k =>
    match k with
    | .index i => if new ≤ i && i < length then some i else none
    | _ => none).reverse
  let rec go (props : PropertyTable) : List Nat → PropertyTable × Nat × Bool
    | [] => (props, new, true)
    | i :: is =>
      match props.get? (.index i) with
      | some p => if p.configurable then go (props.erase (.index i)) is else (props, i + 1, false)
      | none => go props is
  let (props, length, ok) := go o.props indices
  ({ o with props, kind := .sparse length writable }, ok)

def defineLength (a : Nat) (d : Descriptor) : Exec Bool := do
  let new ← match d.value with
    | some v => some <$> toArrayLength v
    | none => pure none
  let o ← getObj a
  let (length, writable) :=
    match o.kind with
    | .array _ length => (length, true)
    | .sparse length writable => (length, writable)
    | _ => (0, false)
  let current : Property := .data (.ofNat length) writable false false
  if !({ d with value := new.map Value.ofNat }.allowedBy current) then return false
  let n := new.getD length
  let stays := d.writable.getD writable
  match o.kind, stays with
  | .array .., true =>
    modifyObj a fun o =>
      match o with
      | ⟨proto, extensible, props, .array items _⟩ =>
        ⟨proto, extensible, props, .array (if n < items.size then items.shrink n else items) n⟩
      | o => o
    return true
  | .array .., false =>
    modifyObj a fun o =>
      match o with
      | ⟨proto, extensible, props, .array items _⟩ =>
        sparseOf ⟨proto, extensible, props,
          .array (if n < items.size then items.shrink n else items) n⟩ false
      | o => o
    return true
  | _, _ =>
    if n ≥ length then
      setKind a (.sparse n stays)
      return true
    else
      let (o, ok) := shortenSparse o length n stays
      modifyObj a fun _ => o
      return ok

/-! ## Defining -/

/-- Defines a property that is kept in an object's table. -/
def defineInTable (a : Nat) (k : Key) (d : Descriptor) : Exec Bool := do
  let o ← getObj a
  match o.props.find? k with
  | some i =>
    match o.props.entries[i]? with
    | some (_, p) =>
      if d.allowedBy p then
        let p' := d.applyTo p
        modifyObj a fun o => { o with props := o.props.setAt i p' }
        return true
      else return false
    | none => return false
  | none =>
    if !o.extensible then return false
    charge propertyBytes
    modifyObj a fun o => { o with props := o.props.push k d.fresh }
    return true

def elementBits (kind : Nat) (v : Value) : Exec Nat :=
  if View.isBig kind then View.bigToBits <$> toBig v else View.toBits kind <$> toNumber v

def writeBuffer (buffer place bits size : Nat) : Exec Unit :=
  modifyObj buffer fun o =>
    match o with
    | ⟨proto, extensible, props, .buffer bytes⟩ =>
      ⟨proto, extensible, props, .buffer (View.writeBits bytes place bits size)⟩
    | o => o

/-- Writes an element of a view; places outside it are passed over. -/
def writeElement (kind buffer offset length i : Nat) (v : Value) : Exec Unit := do
  let bits ← elementBits kind v
  if i < length then
    let size := View.elementSize kind
    writeBuffer buffer (offset + i * size) bits size

/-- Defines a property of an object other than a proxy. -/
def defineOrdinary (a : Nat) (k : Key) (d : Descriptor) : Exec Bool := do
  let o ← getObj a
  match o.kind, k with
  | .array items length, .index i =>
    let current : Option Property :=
      match items[i]? with
      | some .hole | none => none
      | some v => some (.plain v)
    let result : Property :=
      match current with
      | some p => d.applyTo p
      | none => d.fresh
    if current.isNone && !o.extensible then return false
    match result with
    | .data v true true true =>
      if i ≤ items.size + gapLimit then
        if i == items.size then chargeElement i
        else if i > items.size then chargeBytes (16 * (i + 1 - items.size))
        modifyObj a fun o => putDense o i v
        return true
      else
        modifyObj a fun o => sparseOf o true
        let _ ← defineInTable a k d
        setKind a (.sparse (max length (i + 1)) true)
        return true
    | _ =>
      modifyObj a fun o => sparseOf o true
      let _ ← defineInTable a k d
      setKind a (.sparse (max length (i + 1)) true)
      return true
  | .sparse length writable, .index i =>
    if i ≥ length && !writable then return false
    let ok ← defineInTable a k d
    if ok && i ≥ length then setKind a (.sparse (i + 1) writable)
    return ok
  | .array .., .name s | .sparse .., .name s =>
    if s == .plain "length" 6 then defineLength a d else defineInTable a k d
  | .boxed (.str _), .index _ | .boxed (.str _), .name _ =>
    match ← ownProperty o k with
    | some p => if o.props.has k then defineInTable a k d else return d.allowedBy p
    | none => defineInTable a k d
  | .view kind buffer offset length, .index i =>
    if i ≥ length || d.isAccessor || d.configurable == some false || d.enumerable == some false
        || d.writable == some false then return false
    match d.value with
    | some v => writeElement kind buffer offset length i v
    | none => pure ()
    return true
  | .namespace _, .name _ | .namespace _, .index _ =>
    match ← ownProperty o k with
    | some (.data v ..) =>
      return d.configurable != some true && d.enumerable != some false && !d.isAccessor
        && d.writable != some false && Descriptor.keepsValue d.value v
    | _ => return false
  | _, _ => defineInTable a k d

def defineOwn (a : Nat) (k : Key) (d : Descriptor) : Exec Bool := do
  match (← getObj a).kind with
  | .proxy .. => fun c => c.defineOwn a k d
  | _ => defineOrdinary a k d

/-- Defines a property; it is an error if the object does not allow it. -/
def defineOrThrow (a : Nat) (k : Key) (d : Descriptor) : Exec Unit := do
  if !(← defineOwn a k d) then
    let o ← getObj a
    if (← getOwn a k).isNone && !o.extensible then typeError "object is not extensible"
    else typeError "property is not configurable"

/-- Gives an object a property as an assignment makes it. -/
def createData (a : Nat) (k : Key) (v : Value) : Exec Unit :=
  defineOrThrow a k (.ofProperty (.plain v))

/-! ## Setting -/

/-- Sets a property of a receiver of itself, after nothing that it inherits from objected. -/
def setOnReceiver (k : Key) (v : Value) (receiver : Value) : Exec (Option Refusal) := do
  match receiver with
  | .obj r =>
    match ← getOwn r k with
    | some (.accessor ..) => return some .readOnly
    | some (.data _ w _ _) =>
      if !w then return some .readOnly
      else if ← defineOwn r k { value := some v } then return none
      else return some .readOnly
    | none =>
      if ← defineOwn r k (.ofProperty (.plain v)) then return none
      else
        match (← getObj r).kind with
        | .proxy .. => return some .byProxy
        | _ => return some .notExtensible
  | _ => return some .notObject

def callSetter (s v receiver : Value) : Exec (Option Refusal) := do
  if s.isObject then
    let _ ← call s receiver #[v]
    return none
  else return some .noSetter

/-- Sets a property of a receiver, as an object and those that it inherits from allow. -/
def setFrom : (fuel : Nat) → (a : Nat) → Key → Value → (receiver : Value) → Exec (Option Refusal)
  | 0, _, _, _, _ => return some .readOnly
  | fuel + 1, a, k, v, receiver => do
    let o ← getObj a
    match o.kind with
    | .proxy .. => fun c => c.set a k v receiver
    | .namespace _ => return some .readOnly
    | .view kind buffer offset length =>
      match k with
      | .index i =>
        writeElement kind buffer offset length i v
        return none
      | _ =>
        match ← ownProperty o k with
        | some (.data _ true _ _) => setOnReceiver k v receiver
        | some (.data ..) => return some .readOnly
        | some (.accessor _ s ..) => callSetter s v receiver
        | none =>
          match o.proto with
          | some p => setFrom fuel p k v receiver
          | none => setOnReceiver k v receiver
    | _ =>
      match ← ownProperty o k with
      | some (.data _ true _ _) => setOnReceiver k v receiver
      | some (.data ..) => return some .readOnly
      | some (.accessor _ s ..) => callSetter s v receiver
      | none =>
        match o.proto with
        | some p => setFrom fuel p k v receiver
        | none => setOnReceiver k v receiver

/-- What can be done at once about setting a property of an object. -/
inductive Shortcut where
  /-- Replaces the property at a place in the table. -/
  | table (i : Nat)
  /-- Replaces or adds an element. -/
  | item
  | none

/-- How a property can be set at once. -/
def shortcut (o : Obj) (k : Key) : Shortcut :=
  match o.kind, k with
  | .array items _, .index i =>
    match items[i]? with
    | some .hole => .none
    | some _ => .item
    | none => .none
  | .plain, k | .closure _, k | .error _, k =>
    match o.props.find? k with
    | some i =>
      match o.props.entries[i]? with
      | some (_, .data _ true _ _) => .table i
      | _ => .none
    | none => .none
  | _, _ => .none

/-- Replaces the value of the property at a place. -/
def putValueAt (o : Obj) (i : Nat) (v : Value) : Obj :=
  { o with
    props := { o.props with
      entries := o.props.entries.modify i fun (k, p) =>
        match p with
        | .data _ w e c => (k, .data v w e c)
        | p => (k, p) } }

def setProp (a : Nat) (k : Key) (v : Value) : Exec (Option Refusal) := do
  let how := shortcut (← getObj a) k
  match how, k with
  | .table i, _ =>
    modifyObj a fun o => putValueAt o i v
    return none
  | .item, .index i =>
    modifyObj a fun o => putDense o i v
    return none
  | _, _ => setFrom chainLimit a k v (.obj a)

def throwRefusal {α : Type} (k : Key) : Refusal → Exec α
  | .readOnly => do typeError ("'" ++ (← keyText k) ++ "' is read-only")
  | .noSetter => typeError "no setter for property"
  | .notExtensible => typeError "object is not extensible"
  | .notObject => typeError "not an object"
  | .byProxy => typeError "proxy: cannot set property"

/-- Sets a property of an object; a refusal is an error. -/
def setOrThrow (a : Nat) (k : Key) (v : Value) : Exec Unit := do
  match ← setProp a k v with
  | none => return
  | some r => throwRefusal k r

def putValue (target : Value) (k : Key) (v : Value) (strict : Bool) : Exec Unit := do
  let refusal ←
    match target with
    | .obj a => setProp a k v
    | target =>
      match primitivePrototype target with
      | some p => setFrom chainLimit p.address k v target
      | none =>
        typeError ("cannot set property '" ++ (← keyText k) ++ "' of " ++ nullishName target)
  match refusal with
  | none => return
  | some r => if strict then throwRefusal k r else return

/-! ## Deleting and closing -/

/-- Removes a property of an object other than a proxy. -/
def deleteOrdinary (a : Nat) (k : Key) : Exec Bool := do
  let o ← getObj a
  match ← ownPresence o k with
  | none => return true
  | some false => return false
  | some true =>
    match o.kind, k with
    | .array .., .index i =>
      modifyObj a fun o =>
        match o with
        | ⟨proto, extensible, props, .array items length⟩ =>
          ⟨proto, extensible, props, .array (items.setIfInBounds i .hole) length⟩
        | o => o
      return true
    | _, _ =>
      modifyObj a fun o => { o with props := o.props.erase k }
      return true
where
  /-- Whether a property that is there can be removed. -/
  ownPresence (o : Obj) (k : Key) : Exec (Option Bool) := do
    match o.kind, k with
    | .namespace exports, .name _ | .namespace exports, .index _ =>
      return if exports.any fun e => e.1 == k then some false else none
    | .view _ _ _ length, .index i => return if i < length then some false else none
    | _, _ => return (← ownProperty o k).map Property.configurable

/-- Removes a property of an object. -/
def deleteProp (a : Nat) (k : Key) : Exec Bool := do
  match (← getObj a).kind with
  | .proxy .. => fun c => c.delete a k
  | _ => deleteOrdinary a k

/-- Forbids an object new properties. -/
def preventExtensions (a : Nat) : Exec Bool := do
  match (← getObj a).kind with
  | .proxy .. => fun c => c.preventExtensions a
  | .namespace _ => return true
  | _ =>
    modifyObj a fun o => { o with extensible := false }
    return true

/-- Whether an object is among those that another inherits from. -/
def inherits (a : Nat) : (fuel : Nat) → Option Nat → Exec Bool
  | 0, _ => return false
  | _, none => return false
  | fuel + 1, some p => do
    if p == a then return true
    let o ← getObj p
    match o.kind with
    | .proxy .. => return false
    | _ => inherits a fuel o.proto

/-- Changes what an object inherits from. -/
def setPrototype (a : Nat) (p : Option Nat) : Exec Bool := do
  let o ← getObj a
  match o.kind with
  | .proxy .. => fun c => c.setPrototype a p
  | _ =>
    if o.proto == p then return true
    if !o.extensible || a == Intrinsic.objectPrototype.address then return false
    if ← inherits a chainLimit p then return false
    modifyObj a fun o => { o with proto := p }
    return true

/-- Changes what an object inherits from; it is an error if that is not allowed. -/
def setPrototypeOrThrow (a : Nat) (p : Option Nat) : Exec Unit := do
  if !(← setPrototype a p) then
    if !(← isExtensible a) then typeError "object is not extensible"
    else typeError "circular prototype chain"

end Exec
end ScriptSandbox
