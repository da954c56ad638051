import ScriptSandbox.Data.Assoc

/-!
# Key-value stores

A store keeps texts by key. Each of its three operations may fail; a failing write may leave a
store changed, so writing answers with the store in either case. Removing an absent key is no
failure.
-/

namespace ScriptSandbox

/-- The storage failed. -/
inductive StoreError where
  | io
  deriving DecidableEq, Repr, Inhabited

/-- What a cache needs of a store. -/
class KeyValueStore (σ : Type) where
  get : σ → String → Except StoreError (Option String)
  set : σ → String → String → Except StoreError Unit × σ
  remove : σ → String → Except StoreError Unit × σ

/-- A store in memory. -/
structure MemoryStore where
  entries : Assoc String := []
  deriving DecidableEq, Repr, Inhabited

/-- How many keys a store in memory holds. -/
def MemoryStore.size (s : MemoryStore) : Nat := s.entries.length

/-- A store in memory never fails. -/
instance : KeyValueStore MemoryStore where
  get s k := .ok (s.entries.get? k)
  set s k v := (.ok (), ⟨s.entries.put k v⟩)
  remove s k := (.ok (), ⟨s.entries.erase k⟩)

/-- A store of which some operations are out of order: each of them fails and changes nothing. -/
structure Faulty (σ : Type) where
  store : σ
  getFails : Bool := false
  setFails : Bool := false
  removeFails : Bool := false

/-- The operations that are in order are those of the store. -/
instance {σ : Type} [KeyValueStore σ] : KeyValueStore (Faulty σ) where
  get s k := if s.getFails then .error .io else KeyValueStore.get s.store k
  set s k v :=
    if s.setFails then (.error .io, s)
    else
      let (r, store) := KeyValueStore.set s.store k v
      (r, { s with store })
  remove s k :=
    if s.removeFails then (.error .io, s)
    else
      let (r, store) := KeyValueStore.remove s.store k
      (r, { s with store })

end ScriptSandbox
