import ScriptSandbox.Machine.Value
import Std.Data.HashMap

/-!
# Properties

The properties of an object, in the order in which they were made. A small table is searched from
its start; one that has grown keeps an index from names to places, which always agrees with the
entries.
-/

namespace ScriptSandbox

/-- A property of an object. -/
inductive Property where
  | data (value : Value) (writable enumerable configurable : Bool)
  | accessor (get set : Value) (enumerable configurable : Bool)
  deriving Inhabited

namespace Property

def plain (v : Value) : Property := .data v true true true

def library (v : Value) : Property := .data v true false true

def enumerable : Property → Bool
  | .data _ _ e _ | .accessor _ _ e _ => e

/-- Whether a property can be changed and removed. -/
def configurable : Property → Bool
  | .data _ _ _ c | .accessor _ _ _ c => c

end Property

/-- The properties of an object. -/
structure PropertyTable where
  entries : Array (Key × Property) := #[]
  index : Option (Std.HashMap Key Nat) := none
  deriving Inhabited

namespace PropertyTable

/-- The size from which on a table keeps an index. -/
def indexedFrom : Nat := 12

def find? (t : PropertyTable) (k : Key) : Option Nat :=
  match t.index with
  | some places => places[k]?
  | none => t.entries.findIdx? fun e => e.1 == k

def get? (t : PropertyTable) (k : Key) : Option Property :=
  match t.find? k with
  | some i => (t.entries[i]?).map (·.2)
  | none => none

def has (t : PropertyTable) (k : Key) : Bool := (t.find? k).isSome

def indexOf (entries : Array (Key × Property)) : Option (Std.HashMap Key Nat) :=
  if entries.size < indexedFrom then none
  else
    some ((List.range entries.size).foldl
      (fun places i =>
        match entries[i]? with
        | some e => places.insert e.1 i
        | none => places) {})

def push (t : PropertyTable) (k : Key) (p : Property) : PropertyTable :=
  let n := t.entries.size
  let entries := t.entries.push (k, p)
  match t.index with
  | some places => ⟨entries, some (places.insert k n)⟩
  | none => if n + 1 < indexedFrom then ⟨entries, none⟩ else ⟨entries, indexOf entries⟩

def setAt (t : PropertyTable) (i : Nat) (p : Property) : PropertyTable :=
  { t with entries := t.entries.modify i fun e => (e.1, p) }

def put (t : PropertyTable) (k : Key) (p : Property) : PropertyTable :=
  match t.find? k with
  | some i => t.setAt i p
  | none => t.push k p

def erase (t : PropertyTable) (k : Key) : PropertyTable :=
  match t.find? k with
  | none => t
  | some i =>
    let entries := t.entries.eraseIdxIfInBounds i
    match t.index with
    | none => ⟨entries, none⟩
    | some _ => ⟨entries, indexOf entries⟩

def ofList (ps : List (Key × Property)) : PropertyTable :=
  let entries := ps.toArray
  ⟨entries, indexOf entries⟩

def sortNat (ns : List Nat) : List Nat := ns.mergeSort (fun a b => decide (a ≤ b))

/-- The names of all properties but private ones: numbers in ascending order, then texts, then
symbols in the order in which they were made. -/
def keys (t : PropertyTable) : List Key :=
  let all := t.entries.toList.map (·.1)
  let numbers := all.filterMap fun k => match k with | .index n => some n | _ => none
  let names := all.filter fun k => match k with | .name _ => true | _ => false
  let symbols := all.filter fun k => match k with | .symbol _ => true | _ => false
  (sortNat numbers).map Key.index ++ names ++ symbols

def mapAll (t : PropertyTable) (f : Property → Property) : PropertyTable :=
  { t with entries := t.entries.map fun e => (e.1, f e.2) }

end PropertyTable
end ScriptSandbox
