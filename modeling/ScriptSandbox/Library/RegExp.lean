import ScriptSandbox.Library.String

/-!
# Regular expressions for guest code

The constructor `RegExp` and what regular expressions inherit. Methods that search go through the
method `exec` of the object that they are called on, so that guest code may put one of its own
there.
-/

namespace ScriptSandbox.Library

open Exec

/-- The flags that there are, in the order in which they are shown, with the names of the properties
that tell whether they are set. -/
def regExpFlags : List (Char × String) :=
  [('d', "hasIndices"), ('g', "global"), ('i', "ignoreCase"), ('m', "multiline"), ('s', "dotAll"),
    ('u', "unicode"), ('y', "sticky")]

/-- Where the next search begins. -/
def lastIndexKey : Key := .name (.plain "lastIndex" 9)

/-- The regular expression that a value is, if it is one. -/
def regExp? (v : Value) : Exec (Option Regex.Matcher) := do
  match v with
  | .obj a =>
    match (← getObj a).kind with
    | .regExp r => return some r
    | _ => return none
  | _ => return none

/-- The regular expression that a method is called on. -/
def thisRegExp (v : Value) : Exec Regex.Matcher := do
  match ← regExp? v with
  | some r => return r
  | none => typeError "RegExp object expected"

def textOrEmpty (v : Value) : Exec Str := do if v.isUndefined then return .empty else toStr v

/-! ## Making -/

/-- The regular expression for a pattern, which may be one itself, and flags. -/
def regexFrom (pattern flags : Value) : Exec Regex.Matcher := do
  match ← regExp? pattern with
  | some r => if flags.isUndefined then return r else regexOf r.source (← toStr flags)
  | none =>
    if ← isRegExp pattern then
      let source ← getNamed pattern "source"
      let flags ← if flags.isUndefined then getNamed pattern "flags" else pure flags
      regexOf (← textOrEmpty source) (← textOrEmpty flags)
    else regexOf (← textOrEmpty pattern) (← textOrEmpty flags)

def constructRegExp (c : NativeCall) : Exec Value := do
  let target := if c.constructs then c.newTarget else .obj c.self
  if !c.constructs && (c.arg 1).isUndefined && (← isRegExp (c.arg 0)) then
    match c.arg 0, ← getValue (c.arg 0) constructorKey with
    | v, .obj a => if a == c.self then return v
    | _, _ => pure ()
  let r ← regexFrom (c.arg 0) (c.arg 1)
  let proto ← prototypeFor target .regExpPrototype
  let v ← newRegExp r
  modifyObj ((v.address?).getD 0) fun o => { o with proto := some proto }
  return v

/-- A pattern as it is written between slashes. -/
def shownSource (s : Str) : Str :=
  let rec go (inClass : Bool) : List Char → List Char
    | [] => []
    | ['\\'] => ['\\']
    | '\\' :: c :: cs => '\\' :: c :: go inClass cs
    | ']' :: cs => ']' :: go false cs
    | '[' :: cs => '[' :: go true cs
    | '\n' :: cs => '\\' :: 'n' :: go inClass cs
    | '/' :: cs => if inClass then '/' :: go inClass cs else '\\' :: '/' :: go inClass cs
    | c :: cs => c :: go inClass cs
  if s.length == 0 then .ofString "(?:)"
  else s.mapText fun t => String.ofList (go false t.toList)

/-! ## Searching -/

/-- An object that inherits nothing, with a value for each group that has a name; absent if none
has. -/
def namedGroups (r : Regex.Matcher) (values : List Value) : Exec Value := do
  if r.groups.all (·.isNone) then return .undefined
  let a ← alloc {}
  for (name, v) in r.groups.zip values do
    match name with
    | some x => createData a (.named x) v
    | none => pure ()
  return .obj a

def matchArray (r : Regex.Matcher) (s : Str) (m : Regex.Match) : Exec Value := do
  let texts := m.map fun place =>
    match place with
    | some (i, j) => Value.str (s.slice i j)
    | none => .undefined
  let array ← newArray texts
  let a := (array.address?).getD 0
  let start := ((m.getD 0 none).getD (0, 0)).1
  let groups ← namedGroups r texts.toList.tail
  createData a (.named "index") (.ofNat start)
  createData a (.named "input") (.str s)
  createData a (.named "groups") groups
  if r.flags.hasIndices then
    let pairs ← m.mapM fun place =>
      match place with
      | some (i, j) => newArray #[.ofNat i, .ofNat j]
      | none => pure .undefined
    let indices ← newArray pairs
    createData ((indices.address?).getD 0) (.named "groups") (← namedGroups r pairs.toList.tail)
    createData a (.named "indices") indices
  return array

/-- The method `exec` itself. An expression for all matches, or a sticky one, goes on where the last
search ended. -/
def execOnce (a : Nat) (r : Regex.Matcher) (s : Str) : Exec Value := do
  let last ← toLength (← getProp a lastIndexKey)
  let moves := r.flags.global || r.flags.sticky
  match r.search s (if moves then last else 0) with
  | none =>
    if moves then setOrThrow a lastIndexKey (.int 0)
    return .null
  | some m =>
    if moves then setOrThrow a lastIndexKey (.ofNat ((m.getD 0 none).getD (0, 0)).2)
    matchArray r s m

/-- Whether a value is null, which stands for no match. -/
def isNull : Value → Bool
  | .null => true
  | _ => false

/-- Searches by the method `exec` of an object: an object that shows the match, or null. -/
def searchBy (a : Nat) (s : Str) : Exec Value := do
  let f ← getProp a (.named "exec")
  if ← isCallable f then
    let v ← call f (.obj a) #[.str s]
    if !v.isObject && !isNull v then
      typeError "RegExp exec method must return an object or null"
    return v
  else execOnce a (← thisRegExp (.obj a)) s

/-- The place after a place: beyond a pair, if pairs are characters. -/
def placeAfter (s : Str) (i : Nat) (unicode : Bool) : Nat :=
  if !unicode then i + 1
  else match s.codePointAt i with
    | some (_, n) => i + n
    | none => i + 1

/-- After an empty match, lets the next search begin one place later. -/
def stepOver (a : Nat) (s found : Str) (unicode : Bool) : Exec Unit := do
  if found.length == 0 then
    let i ← toLength (← getProp a lastIndexKey)
    setOrThrow a lastIndexKey (.ofNat (placeAfter s i unicode))

/-- All matches, from the start of a string on, with their texts. -/
def allMatches (a : Nat) (s : Str) (unicode : Bool) :
    (fuel : Nat) → Array (Value × Str) → Exec (Array (Value × Str))
  | 0, acc => return acc
  | fuel + 1, acc => do
    match ← searchBy a s with
    | .obj m =>
      holdAlso (.obj m)
      let found ← toStr (← getProp m (.index 0))
      stepOver a s found unicode
      allMatches a s unicode fuel (acc.push (.obj m, found))
    | _ => return acc

def shownFlags (a : Nat) : Exec String := do toText (← getProp a (.named "flags"))

/-- All matches if the flags ask for them, or else the first one. -/
def wantedMatches (a : Nat) (s : Str) (flags : String) : Exec (Array (Value × Str)) := do
  if flags.contains 'g' then
    setOrThrow a lastIndexKey (.int 0)
    allMatches a s (flags.contains 'u') elementLimit #[]
  else
    match ← searchBy a s with
    | .obj m => return #[(.obj m, ← toStr (← getProp m (.index 0)))]
    | _ => return #[]

def matchWith (a : Nat) (s : Str) : Exec Value := do
  let flags ← shownFlags a
  if flags.contains 'g' then
    let found ← wantedMatches a s flags
    if found.isEmpty then return .null
    newArray (found.map fun m => .str m.2)
  else searchBy a s

def searchWith (a : Nat) (s : Str) : Exec Value := do
  let before ← getProp a lastIndexKey
  if !before.sameValue (.int 0) then setOrThrow a lastIndexKey (.int 0)
  let found ← searchBy a s
  if !(← getProp a lastIndexKey).sameValue before then setOrThrow a lastIndexKey before
  match found with
  | .obj m => getProp m (.named "index")
  | _ => return .int (-1)

/-! ## Replacing -/

def replacementOf (s : Str) (m : Nat) (text : Str) (place : Nat) (replacement : Value)
    (isFunction : Bool) : Exec Str := do
  let count ← lengthOf m
  let captures ← forCount (fun (acc : Array (Option Str)) i => do
    let v ← getProp m (.ofNat i)
    return acc.push (← if v.isUndefined then pure none else some <$> toStr v)) (count - 1) 1 #[]
  let groups ← getProp m (.named "groups")
  if isFunction then
    let shown := captures.map fun c =>
      match c with
      | some t => Value.str t
      | none => .undefined
    let args := #[.str text] ++ shown ++ #[.ofNat place, .str s]
    toStr (← call replacement .undefined (if groups.isUndefined then args else args.push groups))
  else
    let named ← if groups.isUndefined then pure none else some <$> toObject groups
    ({ subject := s, text, place, captures, named } : Found).replaced (← toStr replacement)

def replaceWith (a : Nat) (s : Str) (replacement : Value) : Exec Value := do
  let isFunction ← isCallable replacement
  let replacement ← if isFunction then pure replacement else Value.str <$> toStr replacement
  let found ← wantedMatches a s (← shownFlags a)
  let mut result := Str.empty
  let mut done : Nat := 0
  for (m, text) in found do
    let m := (m.address?).getD 0
    let i ← toInteger (← getProp m (.named "index"))
    let place := min i.toNat s.length
    let t ← replacementOf s m text place replacement isFunction
    if done ≤ place then
      result := result ++ s.slice done place ++ t
      done := place + text.length
  return .str (result ++ s.slice done s.length)

/-! ## Splitting and listing -/

/-- A regular expression like another one, with other flags, made by its constructor. -/
def likeRegExp (a : Nat) (flags : Str) : Exec Nat := do
  let c ← speciesOf a .regExpConstructor
  needObject (← construct c #[.obj a, .str flags] c)

/-- The pieces of a string between matches, from a place on; the piece that has begun starts at
another place. -/
def splitFrom (a : Nat) (s : Str) (unicode : Bool) (limit : Nat) :
    (fuel : Nat) → (start place : Nat) → Array Value → Exec (Array Value)
  | 0, _, _, acc => return acc
  | fuel + 1, start, place, acc => do
    if place ≥ s.length then return acc.push (.str (s.slice start s.length))
    setOrThrow a lastIndexKey (.ofNat place)
    match ← searchBy a s with
    | .obj m =>
      let stop := min (← toLength (← getProp a lastIndexKey)) s.length
      if stop == start then
        splitFrom a s unicode limit fuel start (placeAfter s place unicode) acc
      else
        let acc := acc.push (.str (s.slice start place))
        let count ← lengthOf m
        let acc ← forCount (fun acc i => do return acc.push (← getProp m (.ofNat i)))
          (if acc.size < limit then count - 1 else 0) 1 acc
        if acc.size ≥ limit then return acc
        splitFrom a s unicode limit fuel stop stop acc
    | _ => splitFrom a s unicode limit fuel start (placeAfter s place unicode) acc

def splitWith (a : Nat) (s : Str) (limit : Value) : Exec Value := do
  let flags ← shownFlags a
  let sticky := if flags.contains 'y' then flags else flags ++ "y"
  let splitter ← likeRegExp a (.ofString sticky)
  let limit ← if limit.isUndefined then pure 4294967295 else toUint32 limit
  if limit == 0 then newArray #[]
  else if s.length == 0 then
    match ← searchBy splitter s with
    | .obj _ => newArray #[]
    | _ => newArray #[.str s]
  else
    let pieces ← splitFrom splitter s (flags.contains 'u') limit elementLimit 0 0 #[]
    newArray (pieces.extract 0 limit)

def listMatches (a : Nat) (s : Str) : Exec Value := do
  let flags ← shownFlags a
  let matcher ← likeRegExp a (.ofString flags)
  setOrThrow matcher lastIndexKey (.ofNat (← toLength (← getProp a lastIndexKey)))
  newObjectOf .matchIteratorPrototype
    (.matchIterator (some matcher) s (flags.contains 'g') (flags.contains 'u')) []

def nextMatch (v : Value) : Exec Value := do
  let refuse : Exec Value := typeError "RegExp String Iterator object expected"
  match v with
  | .obj a =>
    match (← getObj a).kind with
    | .matchIterator none _ _ _ => iterResult .undefined true
    | .matchIterator (some r) s global unicode =>
      match ← searchBy r s with
      | .obj m =>
        if global then stepOver r s (← toStr (← getProp m (.index 0))) unicode
        else setKind a (.matchIterator none .empty false false)
        iterResult (.obj m) false
      | _ =>
        setKind a (.matchIterator none .empty false false)
        iterResult .undefined true
    | _ => refuse
  | _ => refuse

/-! ## The functions -/

/-- Functions of regular expressions. -/
def regExpFn (f : RegExpFn) (c : NativeCall) : Exec Value := do
  let isPrototype : Bool :=
    match c.this with
    | .obj a => a == Intrinsic.regExpPrototype.address
    | _ => false
  let withText (act : Nat → Str → Exec Value) : Exec Value := do
    let a ← needObject c.this
    act a (← toStr (c.arg 0))
  match f with
  | .construct => constructRegExp c
  | .exec =>
    let r ← thisRegExp c.this
    withText fun a s => execOnce a r s
  | .compile =>
    let _ ← thisRegExp c.this
    let a ← needObject c.this
    let r ← regexFrom (c.arg 0) (c.arg 1)
    setKind a (.regExp r)
    setOrThrow a lastIndexKey (.int 0)
    return c.this
  | .test => withText fun a s => do return .bool !(isNull (← searchBy a s))
  | .toString =>
    let a ← needObject c.this
    let source ← toStr (← getProp a (.named "source"))
    let flags ← toStr (← getProp a (.named "flags"))
    return .str (Str.ofString "/" ++ source ++ Str.ofString "/" ++ flags)
  | .source =>
    if isPrototype then return .ofString "(?:)"
    return .str (shownSource (← thisRegExp c.this).source)
  | .flags =>
    let a ← needObject c.this
    let set ← regExpFlags.filterM fun (_, name) => do return (← getProp a (.named name)).truthy
    return .ofString (String.ofList (set.map (·.1)))
  | .flag x =>
    if isPrototype then return .undefined
    return .bool ((← thisRegExp c.this).flagsText.toLossy.contains x)
  | .species => return c.this
  | .replace => withText fun a s => replaceWith a s (c.arg 1)
  | .match => withText matchWith
  | .matchAll => withText listMatches
  | .search => withText searchWith
  | .split => withText fun a s => splitWith a s (c.arg 1)
  | .iteratorNext => nextMatch c.this

/-- The functions of `RegExp`. -/
def regExpStatics : List Member := [species (.regExp .species)]

/-- What every regular expression inherits. -/
def regExpMethods : List Member :=
  [getter "flags" (.regExp .flags), getter "source" (.regExp .source)]
    ++ regExpFlags.map (fun (x, name) => getter name (.regExp (.flag x)))
    ++ [method "exec" (.regExp .exec) 1, method "compile" (.regExp .compile) 2,
      method "test" (.regExp .test) 1, method "toString" (.regExp .toString) 0,
      symbolMethod .replace "[Symbol.replace]" (.regExp .replace) 2,
      symbolMethod .match "[Symbol.match]" (.regExp .match) 1,
      symbolMethod .matchAll "[Symbol.matchAll]" (.regExp .matchAll) 1,
      symbolMethod .search "[Symbol.search]" (.regExp .search) 1,
      symbolMethod .split "[Symbol.split]" (.regExp .split) 2]

def matchIteratorMethods : List Member :=
  [method "next" (.regExp .iteratorNext) 0, tag "RegExp String Iterator"]

end ScriptSandbox.Library
