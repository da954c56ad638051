import ScriptSandbox.Machine.Property

/-!
# Keyed collections

The entries of a map or a set of guest code, in the order in which they were made. An entry that is
removed leaves its place empty, so that iterators, which count places, neither miss nor repeat an
entry.
-/

namespace ScriptSandbox

/-- A value as the key of an entry: equal keys stand for values that a collection takes for the
same. -/
inductive EntryKey where
  | undefined
  | null
  | bool (b : Bool)
  | num (bits : UInt64)
  | str (s : Str)
  | sym (id : Nat)
  | big (n : Int)
  | obj (address : Nat)
  deriving BEq, Hashable, Inhabited

/-- The key for a value; both zeros have the same. -/
def EntryKey.of : Value → EntryKey
  | .undefined | .hole => .undefined
  | .null => .null
  | .bool b => .bool b
  | .int n => .num (Numeral.ofInt n).toBits
  | .num x => .num (if x == 0.0 then 0 else x.toBits)
  | .str s => .str s
  | .sym i => .sym i
  | .big n => .big n
  | .obj a => .obj a

/-- The entries of a collection. -/
structure Collection where
  entries : Array (Option (Value × Value)) := #[]
  places : Std.HashMap EntryKey Nat := {}
  deriving Inhabited

namespace Collection

/-- How many entries there are. -/
def size (c : Collection) : Nat := c.places.size

def get? (c : Collection) (k : Value) : Option Value :=
  match c.places[EntryKey.of k]? with
  | some i => ((c.entries[i]?).join).map (·.2)
  | none => none

/-- Whether there is an entry. -/
def has (c : Collection) (k : Value) : Bool := c.places.contains (EntryKey.of k)

/-- Adds or replaces an entry. -/
def put (c : Collection) (k v : Value) : Collection :=
  match c.places[EntryKey.of k]? with
  | some i => { c with entries := c.entries.modify i fun e => e.map fun (k, _) => (k, v) }
  | none =>
    let n := c.entries.size
    let k := match k with
      | .num x => if x == 0.0 then .int 0 else k
      | k => k
    ⟨c.entries.push (some (k, v)), c.places.insert (EntryKey.of k) n⟩

/-- Removes an entry; its place stays. -/
def erase (c : Collection) (k : Value) : Collection :=
  match c.places[EntryKey.of k]? with
  | none => c
  | some i => ⟨c.entries.modify i fun _ => none, c.places.erase (EntryKey.of k)⟩

/-- Removes all entries; their places stay. -/
def clear (c : Collection) : Collection := ⟨c.entries.map fun _ => none, {}⟩

/-- The first entry from a place on, and the place after it. -/
def next? (c : Collection) (start : Nat) : Option (Value × Value × Nat) :=
  let rec go : Nat → Nat → Option (Value × Value × Nat)
    | 0, _ => none
    | fuel + 1, i =>
      match c.entries[i]? with
      | none => none
      | some none => go fuel (i + 1)
      | some (some (k, v)) => some (k, v, i + 1)
  go (c.entries.size + 1 - start) start

end Collection
end ScriptSandbox
