import ScriptSandbox.Cache.CodeCache
import ScriptSandbox.Proofs.Data.Assoc

/-!
# What a cache may rely on in a store

A store is lawful if there is a content, key by key, that a read which succeeds tells, that a write
which succeeds changes at its key only, and that an operation which fails leaves alone. It is
reliable if no operation fails. A cache keeps code and stamps under keys that never meet
(`storeKey_ne_meta`), so what it writes as stamps is no concern of the code.

In a store that several caches share, what one of them does must be no concern of the others, as
long as they have no key in common. That takes a store in which an operation depends on what is at
its own key, whether it succeeds or not, and leaves what is at other keys as it was
(`KeywiseStore`). Such are a store in memory, one in a directory
(`ScriptSandbox.Proofs.Cache.Directory`), and either of them with some operations out of order. An
operation may also fail now and then, as long as what decides when is part of the cell of its key.
-/

namespace ScriptSandbox

/-- A store with a content. -/
class LawfulStore (σ : Type) [KeyValueStore σ] where
  /-- What is kept under a key. -/
  content : σ → String → Option String
  get_ok {s : σ} {k : String} {found : Option String} :
    KeyValueStore.get s k = .ok found → found = content s k
  set_ok {s : σ} {k v : String} (k' : String) : (KeyValueStore.set s k v).1 = .ok () →
    content (KeyValueStore.set s k v).2 k' = if k' = k then some v else content s k'
  set_error {s : σ} {k v : String} {e : StoreError} (k' : String) :
    (KeyValueStore.set s k v).1 = .error e → content (KeyValueStore.set s k v).2 k' = content s k'
  remove_ok {s : σ} {k : String} (k' : String) : (KeyValueStore.remove s k).1 = .ok () →
    content (KeyValueStore.remove s k).2 k' = if k' = k then none else content s k'
  remove_error {s : σ} {k : String} {e : StoreError} (k' : String) :
    (KeyValueStore.remove s k).1 = .error e →
      content (KeyValueStore.remove s k).2 k' = content s k'

/-- A store that never fails. -/
class ReliableStore (σ : Type) [KeyValueStore σ] : Prop where
  get_ne_error (s : σ) (k : String) (e : StoreError) : KeyValueStore.get s k ≠ .error e
  set_eq_ok (s : σ) (k v : String) : (KeyValueStore.set s k v).1 = .ok ()
  remove_eq_ok (s : σ) (k : String) : (KeyValueStore.remove s k).1 = .ok ()

open LawfulStore (content)

instance : LawfulStore MemoryStore where
  content s k := s.entries.get? k
  get_ok h := (Except.ok.inj h).symm
  set_ok _ _ := Assoc.get?_put
  set_error _ h := nomatch h
  remove_ok _ _ := Assoc.get?_erase
  remove_error _ h := nomatch h

instance {σ : Type} [KeyValueStore σ] [LawfulStore σ] : LawfulStore (Faulty σ) where
  content s k := content s.store k
  get_ok {s k found} h := by
    simp only [KeyValueStore.get] at h
    split at h
    · cases h
    · exact LawfulStore.get_ok h
  set_ok {s k v} k' h := by
    simp only [KeyValueStore.set] at h ⊢
    split at h
    · cases h
    · next hworks => simpa only [if_neg hworks] using LawfulStore.set_ok k' h
  set_error {s k v e} k' h := by
    simp only [KeyValueStore.set] at h ⊢
    split at h
    · next hfails => rw [if_pos hfails]
    · next hworks => simpa only [if_neg hworks] using LawfulStore.set_error k' h
  remove_ok {s k} k' h := by
    simp only [KeyValueStore.remove] at h ⊢
    split at h
    · cases h
    · next hworks => simpa only [if_neg hworks] using LawfulStore.remove_ok k' h
  remove_error {s k e} k' h := by
    simp only [KeyValueStore.remove] at h ⊢
    split at h
    · next hfails => rw [if_pos hfails]
    · next hworks => simpa only [if_neg hworks] using LawfulStore.remove_error k' h

instance : ReliableStore MemoryStore where
  get_ne_error _ _ _ h := nomatch h
  set_eq_ok _ _ _ := rfl
  remove_eq_ok _ _ := rfl

section Operations

variable {σ : Type} [KeyValueStore σ] [LawfulStore σ]

/-! ## Operations at one key -/

/-- A write touches no other key, whether it succeeds or not. -/
theorem content_set_of_ne (s : σ) (v : String) {k k' : String} (h : k' ≠ k) :
    content (KeyValueStore.set s k v).2 k' = content s k' := by
  cases hset : (KeyValueStore.set s k v).1 with
  | ok => rw [LawfulStore.set_ok k' hset, if_neg h]
  | error e => exact LawfulStore.set_error k' hset

theorem content_remove_of_ne (s : σ) {k k' : String} (h : k' ≠ k) :
    content (KeyValueStore.remove s k).2 k' = content s k' := by
  cases hremove : (KeyValueStore.remove s k).1 with
  | ok => rw [LawfulStore.remove_ok k' hremove, if_neg h]
  | error e => exact LawfulStore.remove_error k' hremove

theorem get_eq_content [ReliableStore σ] (s : σ) (k : String) :
    KeyValueStore.get s k = .ok (content s k) := by
  cases hget : KeyValueStore.get s k with
  | ok found => rw [LawfulStore.get_ok hget]
  | error e => exact absurd hget (ReliableStore.get_ne_error s k e)

end Operations

/-! ## Keys of a cache -/

namespace CodeCache

theorem storeKey_inj {keyPrefix name name' : String} :
    storeKey keyPrefix name = storeKey keyPrefix name' ↔ name = name' := by
  simp [storeKey, String.append_right_inj]

/-- The code of no name but the reserved one is where the stamps are. -/
theorem storeKey_ne_meta {keyPrefix name : String} (h : name ≠ metaName) :
    storeKey keyPrefix name ≠ storeKey keyPrefix metaName :=
  fun heq => h (storeKey_inj.mp heq)

variable {σ : Type} [KeyValueStore σ] [LawfulStore σ]

/-- The code of a name, as the store has it. -/
def codeOf (c : CodeCache σ) (name : String) : Option String :=
  content c.store (storeKey c.keyPrefix name)

/-- Writing the stamps is no concern of the code, whether it succeeds or not. -/
theorem codeOf_persist (c : CodeCache σ) {name : String} (h : name ≠ metaName) :
    c.persist.codeOf name = c.codeOf name :=
  content_set_of_ne _ _ (storeKey_ne_meta h)

theorem codeOf_removeCode (c : CodeCache σ) {name name' : String} (h : name' ≠ name) :
    (c.removeCode name).codeOf name' = c.codeOf name' :=
  content_remove_of_ne _ fun heq => h (storeKey_inj.mp heq)

end CodeCache

/-! ## Stores that treat each key by itself -/

/-- A store that treats each key by itself. -/
class KeywiseStore (σ : Type) [KeyValueStore σ] extends LawfulStore σ where
  /-- All that an operation may depend on. -/
  Cell : Type
  /-- What an operation at a key depends on. -/
  cell : σ → String → Cell
  content_congr {s s' : σ} {k : String} : cell s k = cell s' k → content s k = content s' k
  get_congr {s s' : σ} {k : String} : cell s k = cell s' k →
    KeyValueStore.get s k = KeyValueStore.get s' k
  set_congr {s s' : σ} {k : String} (v : String) : cell s k = cell s' k →
    (KeyValueStore.set s k v).1 = (KeyValueStore.set s' k v).1 ∧
      cell (KeyValueStore.set s k v).2 k = cell (KeyValueStore.set s' k v).2 k
  set_ne {k k' : String} (s : σ) (v : String) : k' ≠ k →
    cell (KeyValueStore.set s k v).2 k' = cell s k'
  remove_congr {s s' : σ} {k : String} : cell s k = cell s' k →
    (KeyValueStore.remove s k).1 = (KeyValueStore.remove s' k).1 ∧
      cell (KeyValueStore.remove s k).2 k = cell (KeyValueStore.remove s' k).2 k
  remove_ne {k k' : String} (s : σ) : k' ≠ k → cell (KeyValueStore.remove s k).2 k' = cell s k'

instance : KeywiseStore MemoryStore where
  Cell := Option String
  cell s k := s.entries.get? k
  content_congr h := h
  get_congr h := congrArg Except.ok h
  set_congr v _ := by
    refine ⟨rfl, ?_⟩
    exact (Assoc.get?_put.trans (if_pos rfl)).trans (Assoc.get?_put.trans (if_pos rfl)).symm
  set_ne _ _ hne := Assoc.get?_put.trans (if_neg hne)
  remove_congr _ := by
    refine ⟨rfl, ?_⟩
    exact (Assoc.get?_erase.trans (if_pos rfl)).trans (Assoc.get?_erase.trans (if_pos rfl)).symm
  remove_ne _ hne := Assoc.get?_erase.trans (if_neg hne)

instance {σ : Type} [KeyValueStore σ] [KeywiseStore σ] : KeywiseStore (Faulty σ) where
  Cell := (Bool × Bool × Bool) × KeywiseStore.Cell σ
  cell s k := ((s.getFails, s.setFails, s.removeFails), KeywiseStore.cell s.store k)
  content_congr h := KeywiseStore.content_congr (Prod.mk.inj h).2
  get_congr {s s' k} h := by
    obtain ⟨⟨hfails, -⟩, hcell⟩ := by simpa using h
    simp only [KeyValueStore.get, hfails, KeywiseStore.get_congr hcell]
  set_congr {s s' k} v h := by
    obtain ⟨⟨hget, hset, hremove⟩, hcell⟩ := by simpa using h
    obtain ⟨hanswer, hnext⟩ := KeywiseStore.set_congr v hcell
    simp only [KeyValueStore.set, hset]
    split
    · exact ⟨rfl, h⟩
    · exact ⟨hanswer, by simp [hget, hremove, hnext]⟩
  set_ne s v hne := by
    simp only [KeyValueStore.set]
    split
    · rfl
    · simp [KeywiseStore.set_ne s.store v hne]
  remove_congr {s s' k} h := by
    obtain ⟨⟨hget, hset, hremove⟩, hcell⟩ := by simpa using h
    obtain ⟨hanswer, hnext⟩ := KeywiseStore.remove_congr hcell
    simp only [KeyValueStore.remove, hremove]
    split
    · exact ⟨rfl, h⟩
    · exact ⟨hanswer, by simp [hget, hset, hnext]⟩
  remove_ne s hne := by
    simp only [KeyValueStore.remove]
    split
    · rfl
    · simp [KeywiseStore.remove_ne s.store hne]

end ScriptSandbox
