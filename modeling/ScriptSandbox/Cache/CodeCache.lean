import ScriptSandbox.Cache.Store
import ScriptSandbox.Clock
import ScriptSandbox.Json.Decoder
import ScriptSandbox.Settings

/-!
# The code cache

A cache keeps the code of packages in a store, up to a capacity; a new package that finds the
cache full takes the place of the one used longest ago. When a package was last used is kept
beside the code, as one JSON object under the reserved name `__meta__`; a cache that is opened over
the store of another one goes on from there.

A failure of the store is never reported by the operations themselves. The operations that read a
clock are given its reading.
-/

namespace ScriptSandbox

/-- The name under which the stamps are kept. -/
def metaName : String := "__meta__"

/-- A cache over a store. -/
structure CodeCache (σ : Type) where
  store : σ
  /-- The stamp of the last use of each package. -/
  stamps : Assoc Nat := []
  clock : Clock := {}
  capacity : Nat
  keyPrefix : String

/-- Why a cache could not be opened. -/
inductive CacheError where
  | io
  | metadata (fault : Json.Fault)

/-- The words for stamps that cannot be read. -/
def CacheError.message : CacheError → String
  | .io => "cache storage I/O failed"
  | .metadata fault => "cache metadata is not valid JSON: " ++ fault.message

namespace CodeCache

def storeKey (keyPrefix name : String) : String := keyPrefix ++ ":" ++ name

def stampsDecoder : Json.Decoder (Assoc Nat) := (Json.Decoder.natural "u64").members.map .ofPairs

def stampsText (stamps : Assoc Nat) : String :=
  (Json.Value.object (stamps.map fun (k, n) => (k, .number (.natural n)))).compact

def withStamps {σ : Type} (store : σ) (s : CacheSettings) (stamps : Assoc Nat) : CodeCache σ where
  store := store
  stamps := stamps
  clock := .startingAfter ((stamps.map (·.2)).max?.getD 0)
  capacity := max s.capacity 1
  keyPrefix := s.keyPrefix

def inMemory (s : CacheSettings) : CodeCache MemoryStore := withStamps {} s []

variable {σ : Type} [KeyValueStore σ]

/-- Opens a cache over a store, with the packages that its stamps name. -/
def openOver (store : σ) (s : CacheSettings) : Except CacheError (CodeCache σ) :=
  match KeyValueStore.get store (storeKey s.keyPrefix metaName) with
  | .error .io => .error .io
  | .ok none => .ok (withStamps store s [])
  | .ok (some text) =>
    match stampsDecoder.run text with
    | .ok stamps => .ok (withStamps store s stamps)
    | .error fault => .error (.metadata fault)

/-- Writes the stamps to the store; if that fails, they stay as they were there. -/
def persist (c : CodeCache σ) : CodeCache σ :=
  { c with
    store := (KeyValueStore.set c.store (storeKey c.keyPrefix metaName) (stampsText c.stamps)).2 }

def removeCode (c : CodeCache σ) (name : String) : CodeCache σ :=
  { c with store := (KeyValueStore.remove c.store (storeKey c.keyPrefix name)).2 }

/-- Marks a name as used now. -/
def touch (c : CodeCache σ) (name : String) (reading : Nat) : CodeCache σ :=
  let (stamp, clock) := c.clock.tick reading
  { c with clock, stamps := c.stamps.put name stamp }

/-- The first of the names with the least stamp. -/
def oldest? : Assoc Nat → Option (String × Nat)
  | [] => none
  | e :: es =>
    match oldest? es with
    | none => some e
    | some e' => if e'.2 < e.2 then some e' else some e

/-- Drops the name used longest ago. -/
def evictOldest (c : CodeCache σ) : CodeCache σ :=
  match oldest? c.stamps with
  | none => c
  | some (name, _) => removeCode { c with stamps := c.stamps.erase name } name

/-- The code of a name, which counts as a use of it. A name whose code has vanished is forgotten;
one whose code cannot be read stays. -/
def get (c : CodeCache σ) (name : String) (reading : Nat) : Option String × CodeCache σ :=
  if name == metaName || !c.stamps.has name then (none, c)
  else
    match KeyValueStore.get c.store (storeKey c.keyPrefix name) with
    | .ok (some code) => (some code, (c.touch name reading).persist)
    | .ok none => (none, persist { c with stamps := c.stamps.erase name })
    | .error _ => (none, c)

/-- Keeps code under a name. Nothing is kept without a name or without code, or under the reserved
name. A new name makes room first, before its code is written. -/
def set (c : CodeCache σ) (name code : String) (reading : Nat) : CodeCache σ :=
  if name.isEmpty || code.isEmpty || name == metaName then c
  else
    let c := if !c.stamps.has name && c.stamps.length ≥ c.capacity then c.evictOldest else c
    match KeyValueStore.set c.store (storeKey c.keyPrefix name) code with
    | (.error _, store) => persist { c with store }
    | (.ok (), store) => (touch { c with store } name reading).persist

/-- Drops a name; tells whether it was there. -/
def remove (c : CodeCache σ) (name : String) : Bool × CodeCache σ :=
  if !c.stamps.has name then (false, c)
  else (true, (removeCode { c with stamps := c.stamps.erase name } name).persist)

/-- Drops every name, and the stamps in the store. -/
def clear (c : CodeCache σ) : CodeCache σ :=
  let c := c.stamps.names.foldl removeCode c
  { c with
    stamps := []
    store := (KeyValueStore.remove c.store (storeKey c.keyPrefix metaName)).2 }

/-- How many names are kept. -/
def count (c : CodeCache σ) : Nat := c.stamps.length

def contains (c : CodeCache σ) (name : String) : Bool := c.stamps.has name

/-- The names, the one used longest ago first. -/
def keysByRecency (c : CodeCache σ) : List String :=
  (c.stamps.mergeSort fun a b => a.2 ≤ b.2).map (·.1)

end CodeCache
end ScriptSandbox
