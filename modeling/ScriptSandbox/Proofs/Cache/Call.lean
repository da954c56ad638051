import ScriptSandbox.Proofs.Cache.Store

/-!
# Calls of a cache

A run is a sequence of calls, each at a reading of the wall clock. Over a store that never fails a
call does one of four things to a cache: nothing, a name is used (`touch`, over a store that has its
code), a name is forgotten, or all are. The lemmas here say which it is, so that what a call keeps
follows from what these keep.
-/

namespace ScriptSandbox

/-- What may be asked of a cache. -/
inductive CacheCall where
  | get (name : String)
  | set (name code : String)
  | remove (name : String)
  | clear
  | contains (name : String)
  | count
  | keysByRecency
  deriving DecidableEq, Repr

/-- What a cache answers. -/
inductive CacheAnswer where
  | code (found : Option String)
  | done
  | flag (holds : Bool)
  | number (n : Nat)
  | names (list : List String)
  deriving DecidableEq, Repr

namespace CodeCache

/-- Whether something can be kept under a name. -/
def Keeps (name code : String) : Prop := name ≠ "" ∧ code ≠ "" ∧ name ≠ metaName

instance (name code : String) : Decidable (Keeps name code) :=
  inferInstanceAs (Decidable (_ ∧ _ ∧ _))

variable {σ : Type} [KeyValueStore σ]

/-- One call, at a reading of the wall clock. -/
def call (c : CodeCache σ) (reading : Nat) : CacheCall → CacheAnswer × CodeCache σ
  | .get name => (.code (c.get name reading).1, (c.get name reading).2)
  | .set name code => (.done, c.set name code reading)
  | .remove name => (.flag (c.remove name).1, (c.remove name).2)
  | .clear => (.done, c.clear)
  | .contains name => (.flag (c.contains name), c)
  | .count => (.number c.count, c)
  | .keysByRecency => (.names c.keysByRecency, c)

/-- A sequence of calls, each at its reading. -/
def run (c : CodeCache σ) : List (CacheCall × Nat) → List CacheAnswer × CodeCache σ
  | [] => ([], c)
  | (what, reading) :: calls =>
      let (answer, next) := c.call reading what
      let (answers, last) := next.run calls
      (answer :: answers, last)

theorem run_cons (c : CodeCache σ) (what : CacheCall) (reading : Nat)
    (calls : List (CacheCall × Nat)) :
    (c.run ((what, reading) :: calls)).1 =
      (c.call reading what).1 :: ((c.call reading what).2.run calls).1 := rfl

def forget (c : CodeCache σ) (name : String) : CodeCache σ :=
  removeCode { c with stamps := c.stamps.erase name } name

def withStore (c : CodeCache σ) (store : σ) : CodeCache σ := { c with store }

def written (c : CodeCache σ) (name code : String) : CodeCache σ :=
  c.withStore (KeyValueStore.set c.store (storeKey c.keyPrefix name) code).2

/-- The cache in which a name is kept: if the name is new and there is no room for it, the name used
longest ago is gone. -/
def withRoom (c : CodeCache σ) (name : String) : CodeCache σ :=
  if !c.stamps.has name && c.stamps.length ≥ c.capacity then c.evictOldest else c

theorem evictOldest_eq (c : CodeCache σ) :
    c.evictOldest = ((oldest? c.stamps).map fun e => c.forget e.1).getD c := by
  rw [evictOldest]
  cases oldest? c.stamps <;> rfl

theorem withRoom_keyPrefix (c : CodeCache σ) (name : String) :
    (c.withRoom name).keyPrefix = c.keyPrefix := by
  rw [withRoom, evictOldest_eq]
  split
  · cases oldest? c.stamps <;> rfl
  · rfl

/-- Making room takes no time. -/
theorem withRoom_clock (c : CodeCache σ) (name : String) : (c.withRoom name).clock = c.clock := by
  rw [withRoom, evictOldest_eq]
  split
  · cases oldest? c.stamps <;> rfl
  · rfl

theorem remove_eq (c : CodeCache σ) (name : String) :
    c.remove name =
      if c.stamps.has name then (true, (c.forget name).persist) else (false, c) := by
  rw [remove]
  cases c.stamps.has name <;> rfl

/-- Nothing of a cache but its store changes while codes are removed. -/
theorem foldl_removeCode (c : CodeCache σ) (names : List String) :
    ∃ store, names.foldl removeCode c = c.withStore store := by
  induction names generalizing c with
  | nil => exact ⟨c.store, rfl⟩
  | cons name names ih =>
      obtain ⟨store, hstore⟩ := ih (c.removeCode name)
      exact ⟨store, hstore⟩

theorem clear_eq (c : CodeCache σ) :
    ∃ store, c.clear = { c.withStore store with stamps := [] } := by
  obtain ⟨store, hstore⟩ := foldl_removeCode c c.stamps.names
  refine ⟨(KeyValueStore.remove store (storeKey c.keyPrefix metaName)).2, ?_⟩
  rw [clear, hstore]
  rfl

theorem get_of_not_has {c : CodeCache σ} {name : String} (h : c.stamps.has name = false)
    (reading : Nat) : c.get name reading = (none, c) := by
  rw [get, h]
  simp

theorem set_of_not_keeps {c : CodeCache σ} {name code : String} (h : ¬ Keeps name code)
    (reading : Nat) : c.set name code reading = c := by
  refine if_pos (Decidable.byContradiction fun hskip => h ?_)
  simpa [Keeps, and_assoc] using hskip

theorem get_of_found {c : CodeCache σ} {name code : String} (hhas : c.stamps.has name = true)
    (hmeta : name ≠ metaName)
    (hget : KeyValueStore.get c.store (storeKey c.keyPrefix name) = .ok (some code))
    (reading : Nat) : c.get name reading = (some code, (c.touch name reading).persist) := by
  rw [get, hget, hhas, beq_eq_false_iff_ne.mpr hmeta]
  rfl

/-- What can be kept is written where there is room for it; the name is used if that succeeds. -/
theorem set_of_keeps {c : CodeCache σ} {name code : String} (h : Keeps name code) (reading : Nat) :
    c.set name code reading =
      (match (KeyValueStore.set (c.withRoom name).store
        (storeKey (c.withRoom name).keyPrefix name) code).1 with
      | .ok () => ((c.withRoom name).written name code).touch name reading
      | .error _ => (c.withRoom name).written name code).persist := by
  obtain ⟨hname, hcode, hmeta⟩ := h
  have hskip : (name.isEmpty || code.isEmpty || name == metaName) = false := by
    simp [hname, hcode, hmeta]
  rw [set, hskip, if_neg Bool.false_ne_true, written]
  dsimp only
  rw [← withRoom]
  rcases KeyValueStore.set (c.withRoom name).store (storeKey (c.withRoom name).keyPrefix name) code
    with ⟨_ | _, store⟩ <;> rfl

/-! ## The clock -/

omit [KeyValueStore σ] in
theorem clock_touch_le (c : CodeCache σ) (name : String) (reading : Nat) :
    (c.touch name reading).clock.last ≤ max reading (c.clock.last + 1) := by
  simp only [touch, Clock.tick]
  omega

theorem clock_get_le (c : CodeCache σ) (name : String) (reading : Nat) :
    (c.get name reading).2.clock.last ≤ max reading (c.clock.last + 1) := by
  have hstill : c.clock.last ≤ max reading (c.clock.last + 1) := by omega
  rw [get]
  split
  · exact hstill
  · split
    · exact clock_touch_le c name reading
    · exact hstill
    · exact hstill

theorem clock_set_le (c : CodeCache σ) (name code : String) (reading : Nat) :
    (c.set name code reading).clock.last ≤ max reading (c.clock.last + 1) := by
  by_cases hkeeps : Keeps name code
  · have hroom : ((c.withRoom name).written name code).clock = c.clock := withRoom_clock c name
    rw [set_of_keeps hkeeps]
    split
    · exact hroom ▸ clock_touch_le ((c.withRoom name).written name code) name reading
    · rw [persist, hroom]
      omega
  · rw [set_of_not_keeps hkeeps]
    omega

theorem call_clock_le (c : CodeCache σ) (reading : Nat) (what : CacheCall) :
    (c.call reading what).2.clock.last ≤ max reading (c.clock.last + 1) := by
  have hstill : c.clock.last ≤ max reading (c.clock.last + 1) := by omega
  cases what with
  | get name => exact clock_get_le c name reading
  | set name code => exact clock_set_le c name code reading
  | remove name =>
      rw [call, remove_eq]
      split <;> exact hstill
  | clear =>
      obtain ⟨store, hstore⟩ := clear_eq c
      rw [call, hstore]
      exact hstill
  | contains name => exact hstill
  | count => exact hstill
  | keysByRecency => exact hstill

end CodeCache

end ScriptSandbox
