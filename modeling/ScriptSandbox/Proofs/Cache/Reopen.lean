import ScriptSandbox.Proofs.Cache.Recency
import ScriptSandbox.Proofs.Cache.Stamps

/-!
# Reopening a cache

A cache that is dropped and opened again over its store goes on as if nothing had happened. It need
not give the stamps that the old one would have given: its clock starts again at the latest stamp
that is left, which may be earlier than the last one that was given. But what a cache does depends
on the order of its stamps only, and that is the same (`SameOrder`), since in both caches a new stamp
is later than all that are there.

The main result is `reopening_invisible`: over a store that never fails, whatever it contains when
the cache is first opened, and wherever the cache is opened again, the answers are those of the
cache that lives on.
-/

namespace ScriptSandbox.CodeCache

open LawfulStore (content)

/-! ## Stamps in the same order -/

/-- Two maps of stamps side by side: they have the same names, and their stamps the same order. -/
structure SideBySide (both : Assoc (Nat × Nat)) (m m' : Assoc Nat) : Prop where
  left : both.mapValues Prod.fst = m
  right : both.mapValues Prod.snd = m'
  order : ∀ a ∈ both, ∀ b ∈ both, a.2.1 ≤ b.2.1 ↔ a.2.2 ≤ b.2.2

/-- Two maps have the same names, and their stamps the same order. -/
def SameOrder (m m' : Assoc Nat) : Prop := ∃ both, SideBySide both m m'

namespace SameOrder

variable {m m' : Assoc Nat}

theorem refl (m : Assoc Nat) : SameOrder m m := by
  refine ⟨m.mapValues fun n => (n, n), ⟨?_, ?_, ?_⟩⟩
  · simp [Assoc.mapValues, Function.comp_def]
  · simp [Assoc.mapValues, Function.comp_def]
  · intro a ha b hb
    obtain ⟨-, -, rfl⟩ := List.mem_map.mp ha
    obtain ⟨-, -, rfl⟩ := List.mem_map.mp hb
    exact Iff.rfl

theorem has (h : SameOrder m m') (name : String) : m'.has name = m.has name := by
  obtain ⟨both, rfl, rfl, -⟩ := h
  rw [Assoc.has_mapValues, Assoc.has_mapValues]

theorem names (h : SameOrder m m') : m'.names = m.names := by
  obtain ⟨both, rfl, rfl, -⟩ := h
  rw [Assoc.names_mapValues, Assoc.names_mapValues]

theorem length (h : SameOrder m m') : m'.length = m.length := by
  obtain ⟨both, rfl, rfl, -⟩ := h
  rw [Assoc.length_mapValues, Assoc.length_mapValues]

theorem erase (h : SameOrder m m') (name : String) : SameOrder (m.erase name) (m'.erase name) := by
  obtain ⟨both, rfl, rfl, horder⟩ := h
  refine ⟨both.erase name, (Assoc.erase_mapValues ..).symm, (Assoc.erase_mapValues ..).symm, ?_⟩
  intro a ha b hb
  exact horder a (Assoc.mem_erase.mp ha).1 b (Assoc.mem_erase.mp hb).1

theorem put (h : SameOrder m m') (hm : m.Sorted) {name : String} {stamp stamp' : Nat}
    (hlater : ∀ e ∈ m, e.2 < stamp) (hlater' : ∀ e ∈ m', e.2 < stamp') :
    SameOrder (m.put name stamp) (m'.put name stamp') := by
  obtain ⟨both, rfl, rfl, horder⟩ := h
  have hsorted : both.Sorted := (Assoc.sorted_mapValues _).mp hm
  refine ⟨both.put name (stamp, stamp'), (Assoc.put_mapValues Prod.fst both).symm,
    (Assoc.put_mapValues Prod.snd both).symm, ?_⟩
  have hold : ∀ a ∈ both, a.2.1 < stamp ∧ a.2.2 < stamp' := fun a ha =>
    ⟨hlater _ (List.mem_map_of_mem ha), hlater' _ (List.mem_map_of_mem ha)⟩
  intro a ha b hb
  rcases (Assoc.mem_put hsorted).mp ha with rfl | ⟨ha, -⟩ <;>
    rcases (Assoc.mem_put hsorted).mp hb with rfl | ⟨hb, -⟩
  · simp
  · have hlt := hold b hb
    exact ⟨fun hle => absurd hlt.1 (Nat.not_lt.mpr hle), fun hle => absurd hlt.2 (Nat.not_lt.mpr hle)⟩
  · have hlt := hold a ha
    exact ⟨fun _ => Nat.le_of_lt hlt.2, fun _ => Nat.le_of_lt hlt.1⟩
  · exact horder a ha b hb

/-- The name used longest ago is the same in both. -/
theorem oldest? (h : SameOrder m m') :
    (CodeCache.oldest? m').map (·.1) = (CodeCache.oldest? m).map (·.1) := by
  obtain ⟨both, rfl, rfl, horder⟩ := h
  have hsame : (CodeCache.oldest? (both.mapValues Prod.fst) = none ∧
        CodeCache.oldest? (both.mapValues Prod.snd) = none) ∨
      ∃ e ∈ both, CodeCache.oldest? (both.mapValues Prod.fst) = some (e.1, e.2.1) ∧
        CodeCache.oldest? (both.mapValues Prod.snd) = some (e.1, e.2.2) := by
    induction both with
    | nil => exact .inl ⟨rfl, rfl⟩
    | cons first rest ih =>
        refine .inr ?_
        simp only [Assoc.mapValues, List.map_cons, CodeCache.oldest?] at ih ⊢
        rcases ih fun a ha b hb => horder a (List.mem_cons_of_mem _ ha) b
          (List.mem_cons_of_mem _ hb) with ⟨hnone, hnone'⟩ | ⟨e, he, hsome, hsome'⟩
        · exact ⟨first, List.mem_cons_self .., by rw [hnone], by rw [hnone']⟩
        · have hiff := horder first (List.mem_cons_self ..) e (List.mem_cons_of_mem _ he)
          rw [hsome, hsome']
          by_cases hle : first.2.1 ≤ e.2.1
          · refine ⟨first, List.mem_cons_self .., if_neg (Nat.not_lt.mpr hle), ?_⟩
            exact if_neg (Nat.not_lt.mpr (hiff.mp hle))
          · refine ⟨e, List.mem_cons_of_mem _ he, if_pos (Nat.not_le.mp hle), ?_⟩
            exact if_pos (Nat.not_le.mp (mt hiff.mpr hle))
  rcases hsame with ⟨hnone, hnone'⟩ | ⟨e, -, hsome, hsome'⟩
  · rw [hnone, hnone']
  · rw [hsome, hsome']
    rfl

theorem mergeSort (h : SameOrder m m') :
    (m'.mergeSort fun a b => a.2 ≤ b.2).map (·.1) = (m.mergeSort fun a b => a.2 ≤ b.2).map (·.1) := by
  obtain ⟨both, rfl, rfl, horder⟩ := h
  have hleft := List.map_mergeSort (l := both) (f := fun e => (e.1, e.2.1))
    (r := fun a b => decide (a.2.1 ≤ b.2.1)) (s := fun a b => decide (a.2 ≤ b.2))
    fun _ _ _ _ => rfl
  have hright := List.map_mergeSort (l := both) (f := fun e => (e.1, e.2.2))
    (r := fun a b => decide (a.2.1 ≤ b.2.1)) (s := fun a b => decide (a.2 ≤ b.2))
    fun a ha b hb => decide_eq_decide.mpr (horder a ha b hb)
  rw [Assoc.mapValues, Assoc.mapValues, ← hleft, ← hright, List.map_map, List.map_map]
  rfl

end SameOrder

/-! ## Runs -/

/-- A call at a reading of the wall clock, or the end of one cache and the start of the next. -/
inductive CacheStep where
  | call (what : CacheCall) (reading : Nat)
  | reopen
  deriving DecidableEq, Repr

def callsOf : List CacheStep → List (CacheCall × Nat)
  | [] => []
  | .call what reading :: steps => (what, reading) :: callsOf steps
  | .reopen :: steps => callsOf steps

section Runs

variable {σ : Type} [KeyValueStore σ]

/-- The answers to the calls among the steps, each given by the cache that is open then. -/
def runReopening (s : CacheSettings) (c : CodeCache σ) :
    List CacheStep → Except CacheError (List CacheAnswer)
  | [] => .ok []
  | .call what reading :: steps =>
      ((c.call reading what).2.runReopening s steps).map ((c.call reading what).1 :: ·)
  | .reopen :: steps =>
    match openOver c.store s with
    | .ok reopened => reopened.runReopening s steps
    | .error e => .error e

/-- All stamps of a run, those the cache has at first included, are below the largest one. -/
def StampsBelow (c : CodeCache σ) : List (CacheCall × Nat) → Prop
  | [] => c.clock.last < maxStamp
  | (what, reading) :: calls =>
      c.clock.last < maxStamp ∧ (c.call reading what).2.StampsBelow calls

theorem StampsBelow.clock {c : CodeCache σ} {calls : List (CacheCall × Nat)}
    (h : c.StampsBelow calls) : c.clock.last < maxStamp := by
  cases calls with
  | nil => exact h
  | cons call calls => exact h.1

/-- So they are if no reading comes so close to the largest stamp that the run could reach it. -/
theorem stampsBelow_of_readings {c : CodeCache σ} {calls : List (CacheCall × Nat)}
    (hclock : c.clock.last + calls.length < maxStamp)
    (hcalls : ∀ call ∈ calls, call.2 + calls.length < maxStamp) : c.StampsBelow calls := by
  induction calls generalizing c with
  | nil => exact hclock
  | cons first calls ih =>
      obtain ⟨what, reading⟩ := first
      rw [List.length_cons] at hclock hcalls
      have hfirst := hcalls _ (List.mem_cons_self ..)
      have hle := call_clock_le c reading what
      refine ⟨by omega, ih (by omega) fun call hcall => ?_⟩
      have := hcalls call (List.mem_cons_of_mem _ hcall)
      omega

end Runs

/-! ## Codes in a store that never fails -/

variable {σ : Type} [KeyValueStore σ] [LawfulStore σ]

theorem get_eq [ReliableStore σ] (c : CodeCache σ) (name : String) (reading : Nat) :
    c.get name reading =
      if name = metaName ∨ c.stamps.has name = false then (none, c)
      else match c.codeOf name with
        | some code => (some code, (c.touch name reading).persist)
        | none => (none, persist { c with stamps := c.stamps.erase name }) := by
  have hskip : (name == metaName || !c.stamps.has name) = true ↔
      name = metaName ∨ c.stamps.has name = false := by simp
  rw [get, get_eq_content]
  simp only [hskip]
  split
  · rfl
  · rw [← codeOf]
    split <;> simp_all

theorem codeOf_removeCode_eq [ReliableStore σ] (c : CodeCache σ) (name name' : String) :
    (c.removeCode name).codeOf name' = if name' = name then none else c.codeOf name' := by
  split
  · next heq =>
      rw [heq]
      exact (LawfulStore.remove_ok _ (ReliableStore.remove_eq_ok ..)).trans (if_pos rfl)
  · next hne => exact codeOf_removeCode c hne

theorem codeOf_written [ReliableStore σ] (c : CodeCache σ) (name code name' : String) :
    (c.written name code).codeOf name' = if name' = name then some code else c.codeOf name' := by
  have hset := ReliableStore.set_eq_ok c.store (storeKey c.keyPrefix name) code
  refine (LawfulStore.set_ok (storeKey c.keyPrefix name') hset).trans ?_
  simp only [storeKey_inj, codeOf]

theorem codeOf_foldl_removeCode [ReliableStore σ] (c : CodeCache σ) (names : List String)
    (name : String) :
    (names.foldl removeCode c).codeOf name = if name ∈ names then none else c.codeOf name := by
  induction names generalizing c with
  | nil => simp
  | cons first names ih =>
      rw [List.foldl_cons, ih, codeOf_removeCode_eq]
      by_cases hfirst : name = first <;> simp [hfirst]

theorem codeOf_clear [ReliableStore σ] (c : CodeCache σ) {name : String} (hmeta : name ≠ metaName) :
    c.clear.codeOf name = if name ∈ c.stamps.names then none else c.codeOf name := by
  rw [← codeOf_foldl_removeCode c]
  exact content_remove_of_ne _ (storeKey_ne_meta hmeta)

/-! ## The stamps are always in the store -/

theorem Saved.call [ReliableStore σ] {c : CodeCache σ} (h : c.Saved) (hin : InTime c)
    (hclock : c.clock.last ≤ maxStamp) {reading : Nat} {what : CacheCall}
    (hnext : (c.call reading what).2.clock.last ≤ maxStamp) : (c.call reading what).2.Saved := by
  by_cases hclear : what = .clear
  · rw [hclear]
    exact saved_clear (ReliableStore.remove_eq_ok ..)
  · rcases call_ends c reading hclear with hsame | ⟨last, hlast, hin'⟩
    · rw [hsame]
      exact h
    · rw [hlast] at hnext ⊢
      exact saved_persist (hin' hin hclock) hnext (ReliableStore.set_eq_ok ..)

/-! ## A cache and its mirror -/

/-- A cache, and one that was opened again over the same store: they have the same codes, and the
same names in the same order. -/
structure Mirrors (s : CacheSettings) (c c' : CodeCache σ) : Prop where
  capacity : c.capacity = max s.capacity 1 ∧ c'.capacity = max s.capacity 1
  keyPrefix : c.keyPrefix = s.keyPrefix ∧ c'.keyPrefix = s.keyPrefix
  stamps : SameOrder c.stamps c'.stamps
  inTime : InTime c ∧ InTime c'
  clock : c'.clock.last ≤ c.clock.last
  code : ∀ name, name ≠ metaName → c'.codeOf name = c.codeOf name

namespace Mirrors

variable {s : CacheSettings} {c c' : CodeCache σ}

/-- Other stores will do if they have the same codes as each other. -/
theorem withStore (h : Mirrors s c c') {store store' : σ}
    (hcode : ∀ name, name ≠ metaName →
      (c'.withStore store').codeOf name = (c.withStore store).codeOf name) :
    Mirrors s (c.withStore store) (c'.withStore store') where
  capacity := h.capacity
  keyPrefix := h.keyPrefix
  stamps := h.stamps
  inTime := ⟨⟨h.inTime.1.sorted, h.inTime.1.past⟩, ⟨h.inTime.2.sorted, h.inTime.2.past⟩⟩
  clock := h.clock
  code := hcode

theorem persist (h : Mirrors s c c') : Mirrors s c.persist c'.persist := by
  refine h.withStore fun name hmeta => ?_
  exact (codeOf_persist c' hmeta).trans ((h.code name hmeta).trans (codeOf_persist c hmeta).symm)

theorem erase (h : Mirrors s c c') (name : String) :
    Mirrors s { c with stamps := c.stamps.erase name }
      { c' with stamps := c'.stamps.erase name } where
  capacity := h.capacity
  keyPrefix := h.keyPrefix
  stamps := h.stamps.erase name
  inTime := ⟨h.inTime.1.erase name, h.inTime.2.erase name⟩
  clock := h.clock
  code := h.code

theorem removeCode [ReliableStore σ] (h : Mirrors s c c') (name : String) :
    Mirrors s (c.removeCode name) (c'.removeCode name) := by
  refine h.withStore fun name' hmeta => ?_
  show (c'.removeCode name).codeOf name' = (c.removeCode name).codeOf name'
  rw [codeOf_removeCode_eq, codeOf_removeCode_eq, h.code name' hmeta]

theorem forget [ReliableStore σ] (h : Mirrors s c c') (name : String) :
    Mirrors s (c.forget name) (c'.forget name) :=
  (h.erase name).removeCode name

theorem written [ReliableStore σ] (h : Mirrors s c c') (name code : String) :
    Mirrors s (c.written name code) (c'.written name code) := by
  refine h.withStore fun name' hmeta => ?_
  show (c'.written name code).codeOf name' = (c.written name code).codeOf name'
  rw [codeOf_written, codeOf_written, h.code name' hmeta]

/-- The two clocks may give different stamps, but both stamps are later than all others. -/
theorem touch (h : Mirrors s c c') (hclock : c.clock.last < maxStamp) (name : String)
    (reading : Nat) : Mirrors s (c.touch name reading) (c'.touch name reading) := by
  have hle := h.clock
  have hlater : ∀ e ∈ c.stamps, e.2 < (c.clock.tick reading).1 := by
    intro e he
    have hpast := h.inTime.1.past e he
    simp only [Clock.tick]
    omega
  have hlater' : ∀ e ∈ c'.stamps, e.2 < (c'.clock.tick reading).1 := by
    intro e he
    have hpast := h.inTime.2.past e he
    simp only [Clock.tick]
    omega
  refine ⟨h.capacity, h.keyPrefix, h.stamps.put h.inTime.1.sorted hlater hlater', ⟨?_, ?_⟩, ?_,
    h.code⟩
  · exact h.inTime.1.touch (Nat.le_of_lt hclock) name reading
  · exact h.inTime.2.touch (by omega) name reading
  · simp only [CodeCache.touch, Clock.tick]
    omega

theorem withRoom [ReliableStore σ] (h : Mirrors s c c') (name : String) :
    Mirrors s (c.withRoom name) (c'.withRoom name) := by
  rw [CodeCache.withRoom, CodeCache.withRoom, h.stamps.has, h.stamps.length, h.capacity.1,
    h.capacity.2, evictOldest_eq, evictOldest_eq]
  split
  · have hnames := h.stamps.oldest?
    cases hold : oldest? c.stamps with
    | none =>
        rw [hold] at hnames
        rw [Option.map_eq_none_iff.mp hnames]
        exact h
    | some e =>
        rw [hold] at hnames
        obtain ⟨e', hold', hname⟩ := Option.map_eq_some_iff.mp hnames
        simp only [hold', Option.map_some, Option.getD_some, hname]
        exact h.forget e.1
  · exact h

theorem clear [ReliableStore σ] (h : Mirrors s c c') : Mirrors s c.clear c'.clear := by
  have hcode : ∀ name, name ≠ metaName → c'.clear.codeOf name = c.clear.codeOf name := by
    intro name hmeta
    rw [codeOf_clear c hmeta, codeOf_clear c' hmeta, h.stamps.names, h.code name hmeta]
  obtain ⟨store, hstore⟩ := clear_eq c
  obtain ⟨store', hstore'⟩ := clear_eq c'
  rw [hstore, hstore'] at hcode ⊢
  exact ⟨h.capacity, h.keyPrefix, .refl [], ⟨⟨Assoc.sorted_nil, List.forall_mem_nil _⟩,
    ⟨Assoc.sorted_nil, List.forall_mem_nil _⟩⟩, h.clock, hcode⟩

/-- Both answer a call in the same way, and go on as a cache and its mirror. -/
theorem call [ReliableStore σ] (h : Mirrors s c c') (hclock : c.clock.last < maxStamp)
    (reading : Nat) (what : CacheCall) :
    (c'.call reading what).1 = (c.call reading what).1 ∧
      Mirrors s (c.call reading what).2 (c'.call reading what).2 := by
  cases what with
  | get name =>
      simp only [CodeCache.call, get_eq, h.stamps.has]
      split
      · exact ⟨rfl, h⟩
      · next hskip =>
          rw [h.code name fun hmeta => hskip (.inl hmeta)]
          split
          · exact ⟨rfl, (h.touch hclock name reading).persist⟩
          · exact ⟨rfl, (h.erase name).persist⟩
  | set name code =>
      refine ⟨rfl, ?_⟩
      simp only [CodeCache.call]
      by_cases hkeeps : Keeps name code
      · simp only [set_of_keeps hkeeps, ReliableStore.set_eq_ok]
        refine (((h.withRoom name).written name code).touch ?_ name reading).persist
        exact (congrArg Clock.last (withRoom_clock c name)).trans_lt hclock
      · rw [set_of_not_keeps hkeeps, set_of_not_keeps hkeeps]
        exact h
  | remove name =>
      simp only [CodeCache.call, remove_eq, h.stamps.has]
      split
      · exact ⟨rfl, (h.forget name).persist⟩
      · exact ⟨rfl, h⟩
  | clear => exact ⟨rfl, h.clear⟩
  | contains name => exact ⟨congrArg CacheAnswer.flag (h.stamps.has name), h⟩
  | count => exact ⟨congrArg CacheAnswer.number h.stamps.length, h⟩
  | keysByRecency => exact ⟨congrArg CacheAnswer.names h.stamps.mergeSort, h⟩

theorem reopened (h : Mirrors s c c') : Mirrors s c (withStamps c'.store s c'.stamps) where
  capacity := ⟨h.capacity.1, rfl⟩
  keyPrefix := ⟨h.keyPrefix.1, rfl⟩
  stamps := h.stamps
  inTime := ⟨h.inTime.1, .withStamps h.inTime.2.sorted⟩
  clock := by
    refine Nat.le_trans ?_ h.clock
    cases hlatest : (c'.stamps.map (·.2)).max? with
    | none => simp [withStamps, Clock.startingAfter, hlatest]
    | some latest =>
        obtain ⟨e, he, rfl⟩ := List.mem_map.mp (List.max?_mem hlatest)
        simp only [withStamps, Clock.startingAfter, hlatest, Option.getD_some]
        exact h.inTime.2.past e he
  code name hmeta := by
    rw [← h.code name hmeta, codeOf, codeOf, h.keyPrefix.2]
    rfl

end Mirrors

/-! ## Whole runs -/

/-- A mirror whose stamps are in the store answers as the cache does, however often it is opened
again. -/
theorem Mirrors.run [ReliableStore σ] {s : CacheSettings} {c c' : CodeCache σ}
    (h : Mirrors s c c') (hsaved : c'.Saved) {steps : List CacheStep}
    (hstamps : c.StampsBelow (callsOf steps)) :
    c'.runReopening s steps = .ok (c.run (callsOf steps)).1 := by
  induction steps generalizing c c' with
  | nil => rfl
  | cons step steps ih =>
      have hclock := hstamps.clock
      cases step with
      | call what reading =>
          obtain ⟨hanswer, hnext⟩ := h.call hclock reading what
          have hbelow := Nat.le_of_lt (Nat.lt_of_le_of_lt h.clock hclock)
          have hbelow' := Nat.le_of_lt (Nat.lt_of_le_of_lt hnext.clock hstamps.2.clock)
          have hsaved' := hsaved.call h.inTime.2 hbelow hbelow'
          rw [runReopening, ih hnext hsaved' hstamps.2, hanswer]
          rfl
      | reopen =>
          have hstored : storedStamps c'.store s.keyPrefix = some c'.stamps := h.keyPrefix.2 ▸ hsaved
          rw [runReopening, openOver_of_storedStamps hstored]
          exact ih h.reopened hstored hstamps

/-- Opening a cache again over the same store and with the same settings is invisible, wherever it
is done: over a store that never fails, all calls are answered as by the cache that lives on,
whatever the wall clock reads, as long as the stamps stay below the largest one. -/
theorem reopening_invisible [ReliableStore σ] {store : σ} {s : CacheSettings} {c : CodeCache σ}
    (hopen : openOver store s = .ok c) (steps : List CacheStep)
    (hstamps : c.StampsBelow (callsOf steps)) :
    c.runReopening s steps = .ok (c.run (callsOf steps)).1 := by
  obtain ⟨m, hstored, hsorted, rfl⟩ := storedStamps_of_openOver hopen
  have hin : InTime (withStamps store s m) := .withStamps hsorted
  exact Mirrors.run ⟨⟨rfl, rfl⟩, ⟨rfl, rfl⟩, .refl m, ⟨hin, hin⟩, Nat.le_refl _, fun _ _ => rfl⟩
    hstored hstamps

/-- The clock of the second cache starts at 91, where the first has reached 92: its newest name was
removed. -/
theorem reopening_invisible_after_remove :
    let steps : List CacheStep :=
      [.call (.set "a" "1") 90, .call (.set "b" "2") 80, .call (.get "a") 70, .call (.remove "a") 60,
        .reopen, .call (.set "c" "3") 50, .reopen, .call (.set "d" "4") 40, .call (.get "b") 30,
        .call (.get "c") 20, .call .clear 10, .reopen, .call .count 0]
    openOver (σ := MemoryStore) {} { capacity := 2 } = .ok (inMemory { capacity := 2 }) ∧
      (inMemory { capacity := 2 }).StampsBelow (callsOf steps) ∧
      (inMemory { capacity := 2 }).runReopening { capacity := 2 } steps =
        .ok [.done, .done, .code (some "1"), .flag true, .done, .done, .code none, .code (some "3"),
          .done, .number 0] := by
  intro steps
  have hstamps : (inMemory { capacity := 2 }).StampsBelow (callsOf steps) :=
    stampsBelow_of_readings (by decide) (by decide)
  have hopen : openOver (σ := MemoryStore) {} { capacity := 2 } = .ok (inMemory { capacity := 2 }) :=
    rfl
  refine ⟨hopen, hstamps, (reopening_invisible hopen steps hstamps).trans (congrArg Except.ok ?_)⟩
  decide

end ScriptSandbox.CodeCache
