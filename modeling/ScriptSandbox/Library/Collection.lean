import ScriptSandbox.Library.Object

/-!
# Keyed collections for guest code

The constructors `Map`, `Set`, `WeakMap` and `WeakSet` with their methods. The weak ones differ only
in that their keys have to be objects and that their entries cannot be listed.
-/

namespace ScriptSandbox.Library

open Exec

def collectionName : CollectionKind → String
  | .map => "Map"
  | .set => "Set"
  | .weakMap => "WeakMap"
  | .weakSet => "WeakSet"

def collectionProto : CollectionKind → Intrinsic
  | .map => .mapPrototype
  | .set => .setPrototype
  | .weakMap => .weakMapPrototype
  | .weakSet => .weakSetPrototype

def holdsKeysOnly : CollectionKind → Bool
  | .set | .weakSet => true
  | _ => false

/-- Whether the keys of a collection have to be objects. -/
def isWeak : CollectionKind → Bool
  | .weakMap | .weakSet => true
  | _ => false

/-- The collection that a method is called on. -/
def thisCollection (k : CollectionKind) (v : Value) : Exec (Nat × Collection) := do
  let fail {α : Type} : Exec α := typeError (collectionName k ++ " object expected")
  match v with
  | .obj a =>
    match (← getObj a).kind with
    | .collection k' c => if k == k' then return (a, c) else fail
    | _ => fail
  | _ => fail

def modifyCollection (a : Nat) (f : Collection → Collection) : Exec Unit :=
  modifyObj a fun o =>
    match o with
    | { kind := .collection k c, proto, extensible, props } =>
      { kind := .collection k (f c), proto, extensible, props }
    | o => o

def putEntry (kind : CollectionKind) (a : Nat) (k v : Value) : Exec Unit := do
  if isWeak kind && !k.isObject then typeError "not an object"
  charge 64
  modifyCollection a fun c => c.put k v

def constructCollection (kind : CollectionKind) (c : NativeCall) : Exec Value := do
  if !c.constructs then typeError "must be called with new"
  let proto ← prototypeFor c.newTarget (collectionProto kind)
  let a ← alloc { proto := some proto, kind := .collection kind {} }
  let items := c.arg 0
  if !items.isNullish then
    let adder ← getProp a (.named (if holdsKeysOnly kind then "add" else "set"))
    if !(← isCallable adder) then typeError "set/add is not a function"
    iterate items () fun _ item => do
      if holdsKeysOnly kind then
        let _ ← call adder (.obj a) #[item]
      else
        if !item.isObject then typeError "not an object"
        let k ← getValue item (.index 0)
        let v ← getValue item (.index 1)
        let _ ← call adder (.obj a) #[k, v]
  return .obj a

/-- Goes through the entries of a collection; those that are made meanwhile are not missed. -/
def forEachEntry (a : Nat) (step : Value → Value → Exec Unit) : (fuel start : Nat) → Exec Unit
  | 0, _ => return
  | fuel + 1, start => do
    match (← getObj a).kind with
    | .collection _ c =>
      match c.next? start with
      | some (k, v, next) =>
        step k v
        forEachEntry a step fuel next
      | none => return
    | _ => return

def collectionIterator (kind : CollectionKind) (listing : Listing) (v : Value) : Exec Value := do
  let (a, _) ← thisCollection kind v
  let proto : Intrinsic :=
    if holdsKeysOnly kind then .setIteratorPrototype else .mapIteratorPrototype
  newObjectOf proto (.collectionIterator (some a) 0 listing) []

/-- The next entry that an iterator over a collection lists. -/
def collectionStep (kind : CollectionKind) (v : Value) : Exec Value := do
  let fail {α : Type} : Exec α := typeError (collectionName kind ++ " Iterator object expected")
  match v with
  | .obj i =>
    match (← getObj i).kind with
    | .collectionIterator none _ _ => iterResult .undefined true
    | .collectionIterator (some a) start listing =>
      match (← getObj a).kind with
      | .collection _ c =>
        match c.next? start with
        | none =>
          setKind i (.collectionIterator none start listing)
          iterResult .undefined true
        | some (k, v, next) =>
          setKind i (.collectionIterator (some a) next listing)
          match listing with
          | .keys => iterResult k false
          | .values => iterResult v false
          | .entries => do iterResult (← newArray #[k, v]) false
      | _ => fail
    | _ => fail
  | _ => fail

/-- A map of groups, by what a function says of their elements. -/
def groupMap (v f : Value) : Exec Value := do
  let groups ← groupsOf v f
  let entries ← groups.mapM fun (k, items) => do return (k, ← newArray items)
  let c := entries.foldl (fun (c : Collection) (k, list) => c.put k list) {}
  newObjectOf .mapPrototype (.collection .map c) []

def collectionFn (kind : CollectionKind) (f : CollectionFn) (c : NativeCall) : Exec Value := do
  let key := c.arg 0
  match f with
  | .construct => constructCollection kind c
  | .get =>
    let (_, m) ← thisCollection kind c.this
    return (m.get? key).getD .undefined
  | .set =>
    let (a, _) ← thisCollection kind c.this
    putEntry kind a key (c.arg 1)
    return c.this
  | .add =>
    let (a, _) ← thisCollection kind c.this
    putEntry kind a key key
    return c.this
  | .has =>
    let (_, m) ← thisCollection kind c.this
    return .bool (m.has key)
  | .delete =>
    let (a, m) ← thisCollection kind c.this
    let found := m.has key
    modifyCollection a fun m => m.erase key
    return .bool found
  | .clear =>
    let (a, _) ← thisCollection kind c.this
    modifyCollection a Collection.clear
    return .undefined
  | .size =>
    let (_, m) ← thisCollection kind c.this
    return .ofNat m.size
  | .forEach =>
    let (a, _) ← thisCollection kind c.this
    if !(← isCallable key) then typeError "not a function"
    forEachEntry a (fun k v => do
      let _ ← call key (c.arg 1) #[v, k, c.this]) elementLimit 0
    return .undefined
  | .keys => collectionIterator kind .keys c.this
  | .values => collectionIterator kind .values c.this
  | .entries => collectionIterator kind .entries c.this
  | .iteratorNext => collectionStep kind c.this
  | .groupBy => groupMap key (c.arg 1)
  | .species => return c.this

/-- The functions of a collection's constructor. -/
def collectionStatics : CollectionKind → List Member
  | .map => [method "groupBy" (.collection .map .groupBy) 2, species (.collection .map .species)]
  | .set => [species (.collection .set .species)]
  | _ => []

def collectionMethods (k : CollectionKind) : List Member :=
  let m (name : String) (f : CollectionFn) (arity : Nat) : Member :=
    method name (.collection k f) arity
  match k with
  | .map =>
    [m "set" .set 2, m "get" .get 1, m "has" .has 1, m "delete" .delete 1, m "clear" .clear 0,
      getter "size" (.collection k .size), m "forEach" .forEach 1, m "values" .values 0,
      m "keys" .keys 0, m "entries" .entries 0, sameAs KnownSymbol.iterator.key "entries",
      tag "Map"]
  | .set =>
    [m "add" .add 1, m "has" .has 1, m "delete" .delete 1, m "clear" .clear 0,
      getter "size" (.collection k .size), m "forEach" .forEach 1, m "values" .values 0,
      sameAs (.named "keys") "values", sameAs KnownSymbol.iterator.key "values",
      m "entries" .entries 0, tag "Set"]
  | .weakMap =>
    [m "set" .set 2, m "get" .get 1, m "has" .has 1, m "delete" .delete 1, tag "WeakMap"]
  | .weakSet => [m "add" .add 1, m "has" .has 1, m "delete" .delete 1, tag "WeakSet"]

def collectionIteratorMethods (k : CollectionKind) : List Member :=
  [method "next" (.collection k .iteratorNext) 0, tag (collectionName k ++ " Iterator")]

end ScriptSandbox.Library
