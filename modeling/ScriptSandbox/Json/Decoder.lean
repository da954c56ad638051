import ScriptSandbox.Json.Reader

/-!
# Decoding typed values

A `Decoder α` knows two ways to get an `α`: from a text, where faults name a line and a column,
and from a document that has been read already, where they name none. The second way serves the
members of a tagged object, whose tag may stand anywhere.

A record is decoded through a *draft*: a value with a place for each field, filled member by
member and finished at the end. Members with other names are passed over; a second member with the
same name is a fault. A record may also be written as a list of its fields in their order.
-/

namespace ScriptSandbox.Json

/-- Reads a value of one type, from a text or from a document. -/
structure Decoder (α : Type) where
  read : Read α
  ofValue : Value → Except Reason α

namespace Decoder

/-- What a document holds, for a message. -/
def found : Value → Found
  | .null => .null
  | .bool b => .bool b
  | .number (.natural n) => .integer n
  | .number (.negative n) => .integer (-(n + 1 : Nat))
  | .number (.real x) => .real x
  | .text s => .text s
  | .list _ => .list
  | .object _ => .object

def map {α β : Type} (f : α → β) (d : Decoder α) : Decoder β where
  read r := match d.read r with
    | .ok (a, r) => .ok (f a, r)
    | .error e => .error e
  ofValue v := (d.ofValue v).map f

/-- A reading step that finds a value ahead, or the end of the text. -/
def aheadOr {α : Type} (f : Char → Read α) : Read α := fun r =>
  let r := r.skipBlanks
  match r.peek? with
  | none => r.failAhead .endInValue
  | some c => f c r

def text : Decoder String where
  read := aheadOr fun c r =>
    if c == '"' then readString r.skip else wrongTypeAhead "a string" r
  ofValue
    | .text s => .ok s
    | v => .error (.wrongType (found v) "a string")

/-- A natural number below `2^64`; `kind` is what messages call it. -/
def natural (kind : String) : Decoder Nat where
  read := aheadOr fun c r =>
    let number (x : Except Fault (Number × Reader)) : Except Fault (Nat × Reader) :=
      match x with
      | .error f => .error f
      | .ok (.natural n, r) => .ok (n, r)
      | .ok (.negative n, r) => r.fail (.wrongValue (.integer (-(n + 1 : Nat))) kind)
      | .ok (.real x, r) => r.fail (.wrongType (.real x) kind)
    if c == '-' then number (readNumber false r.skip)
    else if '0' ≤ c && c ≤ '9' then number (readNumber true r)
    else wrongTypeAhead kind r
  ofValue
    | .number (.natural n) => .ok n
    | .number (.negative n) => .error (.wrongValue (.integer (-(n + 1 : Nat))) kind)
    | v => .error (.wrongType (found v) kind)

/-- A value or null. -/
def option {α : Type} (d : Decoder α) : Decoder (Option α) where
  read r :=
    let r := r.skipBlanks
    match r.peek? with
    | some 'n' =>
      match readWord "ull".toList r.skip with
      | .ok (_, r) => .ok (none, r)
      | .error f => .error f
    | _ => (d.map some).read r
  ofValue
    | .null => .ok none
    | v => (d.map some).ofValue v

def list {α : Type} (d : Decoder α) : Decoder (List α) where
  read := aheadOr fun c r =>
    if c == '[' then
      readContainer closeList (fun r => readItems d.read (r.rest.length + 1) true [] r) r
    else wrongTypeAhead "a sequence" r
  ofValue
    | .list vs => vs.mapM d.ofValue
    | v => .error (.wrongType (found v) "a sequence")

/-- An object with any keys, as its members in order. -/
def members {α : Type} (d : Decoder α) : Decoder (List (String × α)) where
  read := aheadOr fun c r =>
    if c == '\x7b' then
      let member (k : String) (ms : List (String × α)) : Read (List (String × α)) := fun r =>
        match readColon r with
        | .error f => .error f
        | .ok (_, r) =>
          match d.read r with
          | .ok (a, r) => .ok ((k, a) :: ms, r)
          | .error f => .error f
      match readContainer closeObject
          (fun r => readMembers member (r.rest.length + 1) true [] r) r with
      | .ok (ms, r) => .ok (ms.reverse, r)
      | .error f => .error f
    else wrongTypeAhead "a map" r
  ofValue
    | .object ms => ms.mapM fun (k, v) => (d.ofValue v).map (k, ·)
    | v => .error (.wrongType (found v) "a map")

/-! ## One of several names -/

def pick {α : Type} (alternatives : List (String × α)) (name : String) : Except Reason α :=
  match alternatives.find? (·.1 == name) with
  | some (_, a) => .ok a
  | none => .error (.unknownVariant name (alternatives.map (·.1)))

/-- A name as text, ahead in the text. -/
def readVariant {α : Type} (alternatives : List (String × α)) : Read α :=
  aheadOr fun c r =>
    if c == '"' then
      match readString r.skip with
      | .error f => .error f
      | .ok (s, r) =>
        match pick alternatives s with
        | .ok a => .ok (a, r)
        | .error e => r.fail e
    else wrongTypeAhead "variant identifier" r

/-- Null, ahead in the text. -/
def readNull : Read Unit :=
  aheadOr fun c r => if c == 'n' then readWord "ull".toList r.skip else wrongTypeAhead "unit" r

/-- One of several names: as text, or as the only key of an object whose value is null. -/
def oneOfNames {α : Type} (alternatives : List (String × α)) : Decoder α where
  read r :=
    let r := r.skipBlanks
    match r.peek? with
    | some '\x7b' =>
      if r.depth ≤ 1 then r.failAhead .tooDeep
      else do
        let (a, r) ← readVariant alternatives r.skip
        let (_, r) ← readColon r
        let (_, r) ← readNull r
        let r := r.skipBlanks
        match r.peek? with
        | some '\x7d' => .ok (a, r.skip)
        | some _ => r.fail .wantedValue
        | none => r.fail .endInObject
    | some '"' => readVariant alternatives r
    | some _ => r.failAhead .wantedValue
    | none => r.failAhead .endInValue
  ofValue
    | .text s => pick alternatives s
    | .object [(k, v)] => do
      let a ← pick alternatives k
      match v with
      | .null | .object [] => .ok a
      | v => .error (.wrongType (found v) "unit")
    | .object _ => .error (.wrongValue .object "map with a single key")
    | v => .error (.wrongType (found v) "string or map")

/-! ## Records -/

/-- One field of a record that is drafted in `σ`. -/
structure Field (σ : Type) where
  name : String
  /-- Whether a record without it is refused. -/
  required : Bool
  /-- Whether the draft holds it. -/
  given : σ → Bool
  /-- Its value, to be put into the draft. -/
  value : Decoder (σ → σ)

/-- A field of a draft, from a decoder, a place to look and a way to put. -/
def Field.of {σ α : Type} (name : String) (required : Bool) (d : Decoder α)
    (get? : σ → Option α) (put : α → σ → σ) : Field σ :=
  ⟨name, required, fun s => (get? s).isSome, d.map put⟩

/-- `n` elements, in words. -/
def elements (n : Nat) : String := toString n ++ (if n == 1 then " element" else " elements")

/-- Reads the fields of a record in their order from the items of a list; `index` fields have been
read, of `total`. -/
def readInOrder {σ : Type} (title : String) (total : Nat) :
    List (Field σ) → (index : Nat) → σ → Read σ
  | [], _, s, r => .ok (s, r)
  | f :: fs, index, s, r =>
    match nextItem (index == 0) r with
    | .error e => .error e
    | .ok (true, r) =>
      match f.value.read r with
      | .error e => .error e
      | .ok (put, r) => readInOrder title total fs (index + 1) (put s) r
    | .ok (false, r) =>
      if f.required then
        .error (.loose (.wrongLength index (title ++ " with " ++ elements total)) r)
      else readInOrder title total fs index s r

def fieldNamed? {σ : Type} (fields : List (Field σ)) (name : String) : Option (Field σ) :=
  fields.find? (·.name == name)

def readMember {σ : Type} (fields : List (Field σ)) (key : String) (s : σ) : Read σ := fun r =>
  match fieldNamed? fields key with
  | some f =>
    if f.given s then .error (.loose (.duplicateField key) r)
    else
      match readColon r with
      | .error e => .error e
      | .ok (_, r) =>
        match f.value.read r with
        | .ok (put, r) => .ok (put s, r)
        | .error e => .error e
  | none =>
    match readColon r with
    | .error e => .error e
    | .ok (_, r) =>
      match ignoreValue r with
      | .ok (_, r) => .ok (s, r)
      | .error e => .error e

/-- The first required field that a draft lacks. -/
def missing? {σ : Type} (fields : List (Field σ)) (s : σ) : Option String :=
  (fields.find? fun f => f.required && !f.given s).map (·.name)

/-- Fills a draft from the items of a list in a document; the items left over are counted. -/
def fillInOrder {σ : Type} (title : String) (total : Nat) :
    List (Field σ) → (index : Nat) → σ → List Value → Except Reason σ
  | [], index, s, vs =>
    if vs.isEmpty then .ok s
    else .error (.wrongLength (index + vs.length) (elements index ++ " in sequence"))
  | f :: fs, index, s, v :: vs => do
    let put ← f.value.ofValue v
    fillInOrder title total fs (index + 1) (put s) vs
  | f :: fs, index, s, [] =>
    if f.required then .error (.wrongLength index (title ++ " with " ++ elements total))
    else fillInOrder title total fs index s []

/-- Fills a draft from the members of an object in a document. -/
def fill {σ : Type} (fields : List (Field σ)) : σ → List (String × Value) → Except Reason σ
  | s, [] => .ok s
  | s, (k, v) :: ms =>
    match fieldNamed? fields k with
    | none => fill fields s ms
    | some f => do
      if f.given s then throw (.duplicateField k)
      let put ← f.value.ofValue v
      fill fields (put s) ms

def draftOfValue {σ : Type} (title : String) (fields : List (Field σ)) (blank : σ) :
    Value → Except Reason σ
  | .list vs => fillInOrder title fields.length fields 0 blank vs
  | .object ms => do
    let s ← fill fields blank ms
    match missing? fields s with
    | some name => throw (.missingField name)
    | none => return s
  | v => .error (.wrongType (found v) title)

/-- A record. `title` is what messages call it, `blank` the draft with nothing given; `finish` is
used on drafts that hold every required field. -/
def record {σ α : Type} (title : String) (fields : List (Field σ)) (blank : σ) (finish : σ → α) :
    Decoder α where
  read := aheadOr fun c r =>
    let done (x : Except Fault (σ × Reader)) : Except Fault (α × Reader) :=
      match x with
      | .ok (s, r) => .ok (finish s, r)
      | .error f => .error f
    if c == '[' then
      done (readContainer closeList (readInOrder title fields.length fields 0 blank) r)
    else if c == '\x7b' then
      done (readContainer closeObject (fun r =>
        match readMembers (readMember fields) (r.rest.length + 1) true blank r with
        | .error f => .error f
        | .ok (s, r) =>
          match missing? fields s with
          | some name => .error (.loose (.missingField name) r)
          | none => .ok (s, r)) r)
    else wrongTypeAhead title r
  ofValue v := (draftOfValue title fields blank v).map finish

/-! ## Tagged objects -/

/-- A kind of tagged object: how to get it from what remains beside the tag. -/
abbrev Variant (α : Type) := Value → Except Reason α

def Variant.bare {α : Type} (a : α) : Variant α
  | .list [] => .ok a
  | .list vs => .error (.wrongLength vs.length (elements 0 ++ " in sequence"))
  | _ => .ok a

def Variant.record {σ α : Type} (title : String) (fields : List (Field σ)) (blank : σ)
    (finish : σ → α) : Variant α :=
  fun v => (draftOfValue title fields blank v).map finish

/-- What the members of a tagged object hold so far. -/
structure Tagged (α : Type) where
  variant : Option (Variant α) := none
  /-- The other members, latest first. -/
  others : List (String × Value) := []

def readTaggedMember {α : Type} (tag : String) (variants : List (String × Variant α))
    (key : String) (s : Tagged α) : Read (Tagged α) := fun r =>
  if key == tag then
    if s.variant.isSome then .error (.loose (.duplicateField tag) r)
    else do
      let (_, r) ← readColon r
      let (v, r) ← readVariant variants r
      return (⟨some v, s.others⟩, r)
  else do
    let (_, r) ← readColon r
    let (v, r) ← readAny r.depth r
    return (⟨s.variant, (key, v) :: s.others⟩, r)

/-- An object whose member `tag` names a variant, wherever it stands; or a list that starts with
the name. `title` is what messages call it. -/
def tagged {α : Type} (title tag : String) (variants : List (String × Variant α)) : Decoder α where
  read := aheadOr fun c r =>
    let finish (x : Except Fault ((Variant α × Value) × Reader)) : Except Fault (α × Reader) :=
      match x with
      | .error f => .error f
      | .ok ((variant, v), r) =>
        match variant v with
        | .ok a => .ok (a, r)
        | .error e => .error (.loose e r)
    if c == '[' then
      finish (readContainer closeList (fun r =>
        match nextItem true r with
        | .error f => .error f
        | .ok (false, r) => .error (.loose (.missingField tag) r)
        | .ok (true, r) =>
          match readVariant variants r with
          | .error f => .error f
          | .ok (variant, r) =>
            match readItems (fun r => readAny r.depth r) (r.rest.length + 1) false [] r with
            | .error f => .error f
            | .ok (vs, r) => .ok ((variant, .list vs), r)) r)
    else if c == '\x7b' then
      finish (readContainer closeObject (fun r =>
        match readMembers (readTaggedMember tag variants) (r.rest.length + 1) true {} r with
        | .error f => .error f
        | .ok (⟨none, _⟩, r) => .error (.loose (.missingField tag) r)
        | .ok (⟨some variant, others⟩, r) => .ok ((variant, .object others.reverse), r)) r)
    else wrongTypeAhead ("internally tagged enum " ++ title) r
  ofValue
    | .object ms =>
      match ms.partition (·.1 == tag) with
      | ([], _) => .error (.missingField tag)
      | ([(_, .text name)], others) => do (← pick variants name) (.object others)
      | ([(_, v)], _) => .error (.wrongType (found v) "variant identifier")
      | (_, _) => .error (.duplicateField tag)
    | .list (.text name :: vs) => do (← pick variants name) (.list vs)
    | .list (v :: _) => .error (.wrongType (found v) "variant identifier")
    | .list [] => .error (.missingField tag)
    | v => .error (.wrongType (found v) ("internally tagged enum " ++ title))

/-! ## Whole texts -/

/-- Decodes a whole text: one value with blanks around it. -/
def run {α : Type} (d : Decoder α) (s : String) : Except Fault α :=
  match d.read (Reader.start s) with
  | .error f => .error f
  | .ok (a, r) =>
    let r := r.skipBlanks
    if r.rest.isEmpty then .ok a else r.failAhead .trailingText

end Decoder
end ScriptSandbox.Json
