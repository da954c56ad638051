import ScriptSandbox.Proofs.Cache.Stamps

/-!
# A cache over a store that fails

Any call of a store may fail, and a cache does not report it. What a cache has in memory stays true
of its store all the same. A `Journal` is a store that notes what it was asked to write and to
remove, and with what success, so that what happened can be told from the store alone; a cache is
`Reached` if it comes from one over an empty store by calls, each of which finds a store that may
fail in other ways than before. The main result is `reached_consistent`: the code of every name is
there and is the one that was last written, an operation on one name that fails changes nothing, and
once the stamps can be written again they are all in the store.
-/

namespace ScriptSandbox

open LawfulStore (content)

/-! ## Stores that fail now and then -/

/-- What a store was asked to change, and whether it succeeded. -/
inductive StoreEvent where
  | written (key text : String) (succeeded : Bool)
  | removed (key : String) (succeeded : Bool)
  deriving DecidableEq, Repr

/-- A store that notes the writes and the removals, the latest first. -/
structure Journal (σ : Type) where
  store : σ
  events : List StoreEvent := []

section Journal

variable {σ : Type} [KeyValueStore σ]

instance : KeyValueStore (Journal σ) where
  get j k := KeyValueStore.get j.store k
  set j k v :=
    let done := KeyValueStore.set j.store k v
    (done.1, ⟨done.2, .written k v done.1.isOk :: j.events⟩)
  remove j k :=
    let done := KeyValueStore.remove j.store k
    (done.1, ⟨done.2, .removed k done.1.isOk :: j.events⟩)

instance [LawfulStore σ] : LawfulStore (Journal σ) where
  content j k := content j.store k
  get_ok := LawfulStore.get_ok (σ := σ)
  set_ok := LawfulStore.set_ok (σ := σ)
  set_error := LawfulStore.set_error (σ := σ)
  remove_ok := LawfulStore.remove_ok (σ := σ)
  remove_error := LawfulStore.remove_error (σ := σ)

end Journal

/-- A store in memory whose failures are planned: reading fails or not, and `plan` tells of each
write and each removal to come whether it fails. Behind the end of the plan, none does. -/
structure Planned where
  entries : Assoc String := []
  readFails : Bool := false
  plan : List Bool := []

instance : KeyValueStore Planned where
  get p k := if p.readFails then .error .io else .ok (p.entries.get? k)
  set p k v :=
    if p.plan.headD false then (.error .io, { p with plan := p.plan.tail })
    else (.ok (), { p with entries := p.entries.put k v, plan := p.plan.tail })
  remove p k :=
    if p.plan.headD false then (.error .io, { p with plan := p.plan.tail })
    else (.ok (), { p with entries := p.entries.erase k, plan := p.plan.tail })

/-- A failing operation is no more than a step in the plan. -/
instance : LawfulStore Planned where
  content p k := p.entries.get? k
  get_ok {p k found} h := by
    simp only [KeyValueStore.get] at h
    split at h
    · cases h
    · exact (Except.ok.inj h).symm
  set_ok {p k v} k' h := by
    simp only [KeyValueStore.set] at h ⊢
    split at h
    · cases h
    · next hplan =>
        rw [if_neg hplan]
        exact Assoc.get?_put
  set_error {p k v e} k' h := by
    simp only [KeyValueStore.set] at h ⊢
    split at h
    · next hplan => rw [if_pos hplan]
    · cases h
  remove_ok {p k} k' h := by
    simp only [KeyValueStore.remove] at h ⊢
    split at h
    · cases h
    · next hplan =>
        rw [if_neg hplan]
        exact Assoc.get?_erase
  remove_error {p k e} k' h := by
    simp only [KeyValueStore.remove] at h ⊢
    split at h
    · next hplan => rw [if_pos hplan]
    · cases h

namespace CodeCache

/-! ## Codes and their names -/

section Held

variable {σ : Type} [KeyValueStore σ] [LawfulStore σ]

/-- The code of every name is in the store, and it is the latest one. -/
structure Held (s : CacheSettings) (c : CodeCache σ) (latest : String → Option String) : Prop where
  keyPrefix : c.keyPrefix = s.keyPrefix
  inTime : InTime c
  clock : c.clock.last ≤ maxStamp
  not_meta : metaName ∉ c.stamps.names
  code : ∀ name ∈ c.stamps.names, ∃ code, c.codeOf name = some code ∧ latest name = some code

namespace Held

variable {s : CacheSettings} {c : CodeCache σ} {latest : String → Option String} {name code : String}

theorem ne_meta (h : Held s c latest) (hname : name ∈ c.stamps.names) : name ≠ metaName :=
  fun hmeta => h.not_meta (hmeta ▸ hname)

/-- Another store will do if it has the same codes. -/
theorem withStore (h : Held s c latest) {store : σ}
    (hcode : ∀ name ∈ c.stamps.names, (c.withStore store).codeOf name = c.codeOf name) :
    Held s (c.withStore store) latest where
  keyPrefix := h.keyPrefix
  inTime := ⟨h.inTime.sorted, h.inTime.past⟩
  clock := h.clock
  not_meta := h.not_meta
  code name hname := by
    rw [hcode name hname]
    exact h.code name hname

theorem persist (h : Held s c latest) : Held s c.persist latest :=
  h.withStore fun _ hname => codeOf_persist c (h.ne_meta hname)

theorem erase (h : Held s c latest) (name : String) :
    Held s { c with stamps := c.stamps.erase name } latest where
  keyPrefix := h.keyPrefix
  inTime := h.inTime.erase name
  clock := h.clock
  not_meta hmem := h.not_meta (List.mem_filter.mp (Assoc.names_erase ▸ hmem)).1
  code name' hname' := h.code name' (List.mem_filter.mp (Assoc.names_erase ▸ hname')).1

/-- A name that is forgotten leaves the others, whether its code can be removed or not. -/
theorem forget (h : Held s c latest) (name : String) : Held s (c.forget name) latest := by
  refine (h.erase name).withStore fun name' hname' => ?_
  have hkept := (List.mem_filter.mp (Assoc.names_erase ▸ hname')).2
  exact codeOf_removeCode _ (bne_iff_ne.mp hkept)

theorem withRoom (h : Held s c latest) (name : String) : Held s (c.withRoom name) latest := by
  rw [CodeCache.withRoom, evictOldest_eq]
  split
  · cases oldest? c.stamps with
    | none => exact h
    | some e => exact h.forget e.1
  · exact h

theorem touch (h : Held s c latest) (hmeta : name ≠ metaName) {latest' : String → Option String}
    {store : σ} (hself : (c.withStore store).codeOf name = some code ∧ latest' name = some code)
    (hother : ∀ name', name' ≠ name →
      (c.withStore store).codeOf name' = c.codeOf name' ∧ latest' name' = latest name')
    {reading : Nat} (hreading : reading ≤ maxStamp) :
    Held s ((c.withStore store).touch name reading) latest' := by
  have hnames : ∀ name' ∈ ((c.withStore store).touch name reading).stamps.names,
      name' = name ∨ name' ∈ c.stamps.names := by
    intro name' hname'
    obtain ⟨e, he, rfl⟩ := List.mem_map.mp hname'
    rcases (Assoc.mem_put h.inTime.sorted).mp he with rfl | ⟨he, -⟩
    · exact .inl rfl
    · exact .inr (List.mem_map_of_mem he)
  have hin : InTime (c.withStore store) := ⟨h.inTime.sorted, h.inTime.past⟩
  refine ⟨h.keyPrefix, hin.touch h.clock name reading, ?_, ?_, ?_⟩
  · simp only [CodeCache.touch, Clock.tick]
    omega
  · intro hmem
    rcases hnames _ hmem with heq | hmem
    · exact hmeta heq.symm
    · exact h.not_meta hmem
  · intro name' hname'
    by_cases hne : name' = name
    · subst hne
      exact ⟨code, hself⟩
    · have hold := h.code name' ((hnames name' hname').resolve_left hne)
      obtain ⟨hcode, hlatest⟩ := hother name' hne
      rw [← hcode, ← hlatest] at hold
      exact hold

theorem use (h : Held s c latest) (hname : name ∈ c.stamps.names) {reading : Nat}
    (hreading : reading ≤ maxStamp) : Held s (c.touch name reading) latest := by
  obtain ⟨code, hcode⟩ := h.code name hname
  have hself : (c.withStore c.store).codeOf name = some code ∧ latest name = some code := hcode
  exact h.touch (h.ne_meta hname) hself (fun _ _ => ⟨rfl, rfl⟩) hreading

theorem written (h : Held s c latest) (hmeta : name ≠ metaName)
    (hset : (KeyValueStore.set c.store (storeKey c.keyPrefix name) code).1 = .ok ())
    {reading : Nat} (hreading : reading ≤ maxStamp) :
    Held s ((c.written name code).touch name reading)
      (fun name' => if name' = name then some code else latest name') := by
  have hself : (c.written name code).codeOf name = some code :=
    (LawfulStore.set_ok _ hset).trans (if_pos rfl)
  refine h.touch hmeta ⟨hself, if_pos rfl⟩ (fun name' hne => ⟨?_, if_neg hne⟩) hreading
  exact content_set_of_ne _ _ fun heq => hne (storeKey_inj.mp heq)

theorem written_error (h : Held s c latest) {e : StoreError}
    (hset : (KeyValueStore.set c.store (storeKey c.keyPrefix name) code).1 = .error e) :
    Held s (c.written name code) latest :=
  h.withStore fun name' _ => LawfulStore.set_error (storeKey c.keyPrefix name') hset

theorem get (h : Held s c latest) (name : String) {reading : Nat} (hreading : reading ≤ maxStamp) :
    Held s (c.get name reading).2 latest := by
  rw [CodeCache.get]
  split
  · exact h
  · next hskip =>
      have hname : name ∈ c.stamps.names := by
        refine Assoc.has_iff_mem_names.mp ?_
        simp only [Bool.or_eq_true, not_or] at hskip
        simpa using hskip.2
      split
      · exact (h.use hname hreading).persist
      · exact (h.erase name).persist
      · exact h

end Held

end Held

/-! ## What happened -/

/-- A call that was made of a cache, with what its store was asked to change meanwhile. -/
structure Record where
  what : CacheCall
  events : List StoreEvent

def Record.wrote (keyPrefix name : String) (r : Record) : Option String :=
  match r.what with
  | .set name' code =>
    if name' = name ∧ StoreEvent.written (storeKey keyPrefix name) code true ∈ r.events then
      some code
    else none
  | _ => none

/-- The code that was last written for a name, where the latest call comes first. -/
def latestSet (keyPrefix : String) (history : List Record) (name : String) : Option String :=
  history.findSome? (Record.wrote keyPrefix name)

/-- Whether the stamps were written, or removed, the last time this was tried. -/
def stampsWritten (keyPrefix : String) : List StoreEvent → Bool
  | [] => false
  | .written key _ succeeded :: events =>
    if key = storeKey keyPrefix metaName then succeeded else stampsWritten keyPrefix events
  | .removed key succeeded :: events =>
    if key = storeKey keyPrefix metaName then succeeded else stampsWritten keyPrefix events

variable {σ : Type} [KeyValueStore σ]

/-- The cache before a call: its store may fail in other ways than before, and nothing is noted
yet. -/
def noting (c : CodeCache (Journal σ)) (store : σ) : CodeCache (Journal σ) := c.withStore ⟨store, []⟩

/-- A call of a cache whose store may fail in other ways than before. -/
def callOver (c : CodeCache (Journal σ)) (store : σ) (reading : Nat) (what : CacheCall) :
    CacheAnswer × CodeCache (Journal σ) := (c.noting store).call reading what

/-- What a call changes, or tries to. -/
def eventsOver (c : CodeCache (Journal σ)) (store : σ) (reading : Nat) (what : CacheCall) :
    List StoreEvent := (c.callOver store reading what).2.store.events

/-! ## Events of one call -/

theorem isOk_iff {r : Except StoreError Unit} : r.isOk = true ↔ r = .ok () := by
  cases r with
  | ok => exact iff_of_true rfl rfl
  | error e => simp [Except.isOk, Except.toBool]

theorem isOk_eq_false_iff {r : Except StoreError Unit} : r.isOk = false ↔ ∃ e, r = .error e := by
  cases r with
  | ok => simp [Except.isOk, Except.toBool]
  | error e => exact iff_of_true rfl ⟨e, rfl⟩

theorem mem_events_withRoom {c : CodeCache (Journal σ)} {name : String} {event : StoreEvent}
    (h : event ∈ (c.withRoom name).store.events) :
    event ∈ c.store.events ∨ ∃ key ok, event = .removed key ok := by
  rw [withRoom, evictOldest_eq] at h
  split at h
  · cases hold : oldest? c.stamps with
    | none =>
        rw [hold] at h
        exact .inl h
    | some e =>
        rw [hold] at h
        rcases List.mem_cons.mp h with rfl | h
        · exact .inr ⟨_, _, rfl⟩
        · exact .inl h
  · exact .inl h

/-- The code of a name is written once, where there is room for it, and only if it is to be
kept. -/
theorem mem_events_set {c : CodeCache (Journal σ)} (hnone : c.store.events = [])
    {name code : String} {reading : Nat} {ok : Bool} :
    StoreEvent.written (storeKey c.keyPrefix name) code ok ∈ (c.set name code reading).store.events ↔
      Keeps name code ∧ (KeyValueStore.set (c.withRoom name).store
        (storeKey (c.withRoom name).keyPrefix name) code).1.isOk = ok := by
  by_cases hkeeps : Keeps name code
  · have hevents : ∃ text done, (c.set name code reading).store.events =
        .written (storeKey (c.withRoom name).keyPrefix metaName) text done ::
          .written (storeKey (c.withRoom name).keyPrefix name) code
            (KeyValueStore.set (c.withRoom name).store
              (storeKey (c.withRoom name).keyPrefix name) code).1.isOk ::
          (c.withRoom name).store.events := by
      rw [set_of_keeps hkeeps]
      split <;> exact ⟨_, _, rfl⟩
    have hroom : StoreEvent.written (storeKey c.keyPrefix name) code ok ∉
        (c.withRoom name).store.events := by
      intro hmem
      rcases mem_events_withRoom hmem with hmem | ⟨key, done, hevent⟩
      · rw [hnone] at hmem
        cases hmem
      · cases hevent
    obtain ⟨text, done, hevents⟩ := hevents
    rw [hevents, withRoom_keyPrefix]
    simp [hroom, storeKey_inj, hkeeps, hkeeps.2.2, eq_comm]
  · rw [set_of_not_keeps hkeeps, hnone]
    exact iff_of_false List.not_mem_nil fun h => hkeeps h.1

/-! ## One call -/

section Call

variable [LawfulStore σ] {s : CacheSettings} {c : CodeCache (Journal σ)} {history : List Record}
  {store : σ} {reading : Nat}

theorem latestSet_set (keyPrefix : String) (history : List Record) (name code : String)
    (events : List StoreEvent) :
    latestSet keyPrefix (⟨.set name code, events⟩ :: history) = fun name' =>
      if name' = name ∧ StoreEvent.written (storeKey keyPrefix name) code true ∈ events then
        some code
      else latestSet keyPrefix history name' := by
  funext name'
  simp only [latestSet, List.findSome?_cons, Record.wrote]
  by_cases hname : name' = name
  · subst hname
    by_cases hmem : StoreEvent.written (storeKey keyPrefix name') code true ∈ events <;> simp [hmem]
  · simp [hname, Ne.symm hname]

/-- Which operations of the store fail is no concern of what it holds. -/
theorem Held.noting {latest : String → Option String} (h : Held s c latest)
    (hsame : ∀ key, content store key = content c.store key) : Held s (c.noting store) latest :=
  h.withStore fun _ _ => hsame _

theorem Held.set (h : Held s c (latestSet s.keyPrefix history)) (hnone : c.store.events = [])
    (name code : String) (hreading : reading ≤ maxStamp) :
    Held s (c.set name code reading) (latestSet s.keyPrefix
      (⟨.set name code, (c.set name code reading).store.events⟩ :: history)) := by
  have hevent : StoreEvent.written (storeKey s.keyPrefix name) code true ∈
      (c.set name code reading).store.events ↔ _ := h.keyPrefix ▸ mem_events_set hnone
  rw [latestSet_set]
  simp only [hevent, isOk_iff]
  by_cases hkeeps : Keeps name code
  · have hroom := h.withRoom name
    rw [set_of_keeps hkeeps]
    cases hset : (KeyValueStore.set (c.withRoom name).store
      (storeKey (c.withRoom name).keyPrefix name) code).1 with
    | ok =>
        simp only [hkeeps, and_true]
        exact (hroom.written hkeeps.2.2 hset hreading).persist
    | error e =>
        simp only [reduceCtorEq, and_false, if_false]
        exact (hroom.written_error hset).persist
  · simp only [hkeeps, false_and, and_false, if_false]
    rw [set_of_not_keeps hkeeps]
    exact h

theorem Held.clear {latest : String → Option String} (h : Held s c latest) :
    Held s c.clear latest := by
  obtain ⟨store, hstore⟩ := clear_eq c
  rw [hstore]
  exact ⟨h.keyPrefix, ⟨Assoc.sorted_nil, List.forall_mem_nil _⟩, h.clock, List.not_mem_nil,
    List.forall_mem_nil _⟩

theorem Held.callOver (h : Held s c (latestSet s.keyPrefix history))
    (hsame : ∀ key, content store key = content c.store key) (hreading : reading ≤ maxStamp)
    (what : CacheCall) :
    Held s (c.callOver store reading what).2
      (latestSet s.keyPrefix (⟨what, c.eventsOver store reading what⟩ :: history)) := by
  have hstart := h.noting hsame
  cases what with
  | get name => exact hstart.get name hreading
  | set name code => exact hstart.set rfl name code hreading
  | remove name =>
      simp only [CodeCache.callOver, call, remove_eq]
      split
      · exact (hstart.forget name).persist
      · exact hstart
  | clear => exact hstart.clear
  | contains name => exact hstart
  | count => exact hstart
  | keysByRecency => exact hstart

/-- If the last writing of the stamps succeeded, the store has them. -/
theorem Held.saved (h : Held s c (latestSet s.keyPrefix history))
    (hsame : ∀ key, content store key = content c.store key) (hreading : reading ≤ maxStamp)
    {what : CacheCall} (hwritten : stampsWritten s.keyPrefix (c.eventsOver store reading what)) :
    (c.callOver store reading what).2.Saved := by
  have hstart := h.noting hsame
  have hnext := h.callOver hsame hreading what
  by_cases hclear : what = .clear
  · subst hclear
    have hevents : c.eventsOver store reading .clear =
        .removed (storeKey (c.callOver store reading .clear).2.keyPrefix metaName)
          (KeyValueStore.remove (c.noting store).emptied.store
            (storeKey (c.noting store).emptied.keyPrefix metaName)).1.isOk ::
          (c.noting store).emptied.store.events := rfl
    rw [hevents, stampsWritten, hnext.keyPrefix, if_pos rfl, isOk_iff] at hwritten
    exact saved_clear hwritten
  · rcases call_ends (c.noting store) reading hclear with hidle | ⟨last, hlast, hin⟩
    · rw [eventsOver, CodeCache.callOver, hidle] at hwritten
      cases hwritten
    · have hevents : c.eventsOver store reading what =
          .written (storeKey (c.callOver store reading what).2.keyPrefix metaName)
            (stampsText last.stamps) (KeyValueStore.set last.store
              (storeKey last.keyPrefix metaName) (stampsText last.stamps)).1.isOk ::
            last.store.events := by
        rw [eventsOver, CodeCache.callOver, hlast]
        rfl
      rw [hevents, stampsWritten, hnext.keyPrefix, if_pos rfl, isOk_iff] at hwritten
      have hclock := hnext.clock
      rw [CodeCache.callOver, hlast] at hclock ⊢
      exact saved_persist (hin hstart.inTime hstart.clock) hclock hwritten

end Call

/-! ## Reached caches -/

/-- Two caches have the same names in the same order, and each name has the same code. -/
structure Unchanged [LawfulStore σ] (c c' : CodeCache (Journal σ)) : Prop where
  contains : ∀ name, c'.contains name = c.contains name
  keysByRecency : c'.keysByRecency = c.keysByRecency
  codeOf : ∀ name, c.contains name = true → c'.codeOf name = c.codeOf name

/-- A cache that was opened over an empty store, and the calls that were made of it, the latest
first. Before each call the store may start to fail in other ways; what it holds is the same. -/
inductive Reached [LawfulStore σ] (s : CacheSettings) :
    CodeCache (Journal σ) → List Record → Prop where
  | opened {store : σ} {c : CodeCache (Journal σ)} (hempty : ∀ key, content store key = none)
      (hopen : openOver ⟨store, []⟩ s = .ok c) : Reached s c []
  | call {c : CodeCache (Journal σ)} {history : List Record} {store : σ} {reading : Nat}
      (what : CacheCall) (before : Reached s c history)
      (hsame : ∀ key, content store key = content c.store key) (hreading : reading ≤ maxStamp) :
      Reached s (c.callOver store reading what).2
        (⟨what, c.eventsOver store reading what⟩ :: history)

/-- What is true of a cache, after the calls of a history, and of whatever is called next. -/
structure Consistent [LawfulStore σ] (s : CacheSettings) (c : CodeCache (Journal σ))
    (history : List Record) : Prop where
  /-- Every name has its code in the store, the one that was last written. -/
  code : ∀ name, c.contains name = true →
    ∃ code, c.codeOf name = some code ∧ latestSet s.keyPrefix history name = some code
  /-- Where the store can be read, that code is found. -/
  found : ∀ store reading, (∀ key, content store key = content c.store key) →
    ∀ name found, c.contains name = true →
      KeyValueStore.get store (storeKey s.keyPrefix name) = .ok found →
        (c.callOver store reading (.get name)).1 = .code (latestSet s.keyPrefix history name)
  /-- Where it cannot, nothing changes. -/
  unread : ∀ store reading, (∀ key, content store key = content c.store key) →
    ∀ name e, KeyValueStore.get store (storeKey s.keyPrefix name) = .error e →
      Unchanged c (c.callOver store reading (.get name)).2
  /-- Nor does anything if the code of a name that is kept cannot be written again. -/
  unwritten : ∀ store reading, (∀ key, content store key = content c.store key) →
    ∀ name code, c.contains name = true →
      .written (storeKey s.keyPrefix name) code false ∈
        c.eventsOver store reading (.set name code) →
          Unchanged c (c.callOver store reading (.set name code)).2
  /-- A call whose last writing of the stamps succeeds leaves them all in the store. -/
  saved : ∀ store reading, (∀ key, content store key = content c.store key) →
    reading ≤ maxStamp → ∀ what, stampsWritten s.keyPrefix (c.eventsOver store reading what) →
      (c.callOver store reading what).2.Saved

section Reached

variable [LawfulStore σ] {s : CacheSettings} {c : CodeCache (Journal σ)} {history : List Record}

theorem Reached.held (h : Reached s c history) : Held s c (latestSet s.keyPrefix history) := by
  induction h with
  | @opened store c hempty hopen =>
      have hnone : storedStamps (⟨store, []⟩ : Journal σ) s.keyPrefix = some [] := by
        have hmeta : content (⟨store, []⟩ : Journal σ) (storeKey s.keyPrefix metaName) = none :=
          hempty _
        rw [storedStamps, hmeta]
      obtain ⟨m, hstored, hsorted, rfl⟩ := storedStamps_of_openOver hopen
      obtain rfl : m = [] := Option.some.inj (hstored.symm.trans hnone)
      exact ⟨rfl, .withStamps hsorted, Nat.zero_le _, List.not_mem_nil, List.forall_mem_nil _⟩
  | call what _ hsame hreading ih => exact ih.callOver hsame hreading what

/-- Over a store that is empty at first and of which any reads, writes and removals fail, every cache
that is reached is consistent with its store. -/
theorem reached_consistent (h : Reached s c history) : Consistent s c history := by
  have hheld := h.held
  have hstamps {c' : CodeCache (Journal σ)} (hsame : c'.stamps = c.stamps)
      (hcode : ∀ name, c.contains name = true → c'.codeOf name = c.codeOf name) :
      Unchanged c c' :=
    ⟨fun name => congrArg (Assoc.has · name) hsame, by rw [keysByRecency, keysByRecency, hsame], hcode⟩
  have hmember {name : String} (hname : c.contains name = true) : name ∈ c.stamps.names :=
    Assoc.has_iff_mem_names.mp hname
  refine ⟨fun name hname => hheld.code name (hmember hname), ?_, ?_, ?_, ?_⟩
  · -- a read that succeeds is answered with the latest code
    intro store reading hsame name found hname hget
    obtain ⟨code, hcode, hlatest⟩ := hheld.code name (hmember hname)
    have hfound : found = some code :=
      (LawfulStore.get_ok hget).trans ((hsame _).trans (hheld.keyPrefix ▸ hcode))
    subst hfound
    have hhas : (c.noting store).stamps.has name = true := hname
    have hget' : KeyValueStore.get (c.noting store).store
        (storeKey (c.noting store).keyPrefix name) = .ok (some code) := hheld.keyPrefix ▸ hget
    rw [hlatest, callOver, call, get_of_found hhas (hheld.ne_meta (hmember hname)) hget']
  · -- one that fails changes nothing
    intro store reading hsame name e hget
    have hget' : KeyValueStore.get (c.noting store).store
        (storeKey (c.noting store).keyPrefix name) = .error e := hheld.keyPrefix ▸ hget
    have hidle : (c.callOver store reading (.get name)).2 = c.noting store := by
      rw [callOver, call, get, hget']
      split <;> rfl
    rw [hidle]
    exact hstamps rfl fun name _ => hsame _
  · intro store reading hsame name code hname hevent
    rw [← hheld.keyPrefix] at hevent
    obtain ⟨hkeeps, hfails⟩ := (mem_events_set rfl).mp hevent
    obtain ⟨e, hset⟩ := isOk_eq_false_iff.mp hfails
    -- The name has its place already, so nothing is removed for a write that then fails.
    have hroom : (c.noting store).withRoom name = c.noting store := by
      have hhas : (c.noting store).stamps.has name = true := hname
      rw [withRoom, hhas]
      rfl
    have hnext : (c.callOver store reading (.set name code)).2 =
        ((c.noting store).written name code).persist := by
      rw [callOver, call, set_of_keeps hkeeps, hset, hroom]
    rw [hnext]
    refine hstamps rfl fun name' hname' => ?_
    rw [codeOf_persist _ (hheld.ne_meta (hmember hname'))]
    rw [hroom] at hset
    exact (LawfulStore.set_error _ hset).trans (hsame _)
  · intro store reading hsame hreading what hwritten
    exact hheld.saved hsame hreading hwritten

end Reached

theorem Reached.planned {s : CacheSettings} {c : CodeCache (Journal Planned)}
    {history : List Record} (h : Reached s c history) (readFails : Bool) (plan : List Bool)
    (what : CacheCall) {reading : Nat} (hreading : reading ≤ maxStamp) :
    Reached s (c.callOver { c.store.store with readFails, plan } reading what).2
      (⟨what, c.eventsOver { c.store.store with readFails, plan } reading what⟩ :: history) :=
  .call what h (fun _ => rfl) hreading

/-- The code of `a` cannot be written a second time. When `b` takes its place, neither can the code
of `a` be removed nor can the stamps be written; the next call heals the stamps. -/
theorem reached_consistent_half_evicted :
    ∃ (c : CodeCache (Journal Planned)) (history : List Record),
      Reached { capacity := 1 } c history ∧ history.length = 4 ∧
        c.contains "a" = false ∧ c.codeOf "a" = some "1" ∧
        c.contains "b" = true ∧ c.codeOf "b" = some "3" ∧ c.Saved ∧
        Consistent { capacity := 1 } c history := by
  have hopen : openOver (⟨{}, []⟩ : Journal Planned) { capacity := 1 } =
      .ok (withStamps ⟨{}, []⟩ { capacity := 1 } []) := rfl
  have hempty : Reached { capacity := 1 } _ [] := .opened (fun _ => rfl) hopen
  have hfirst := hempty.planned false [] (.set "a" "1") (Nat.zero_le maxStamp)
  have hagain := hfirst.planned false [true] (.set "a" "2") (Nat.zero_le maxStamp)
  have hevict := hagain.planned false [true, false, true] (.set "b" "3") (Nat.zero_le maxStamp)
  have hread := hevict.planned false [] (.get "b") (Nat.zero_le maxStamp)
  have hsaved := (reached_consistent hevict).saved _ 0 (fun _ => rfl) (Nat.zero_le maxStamp)
    (.get "b") (by decide)
  exact ⟨_, _, hread, rfl, by decide, by decide, by decide, by decide, hsaved,
    reached_consistent hread⟩

end CodeCache

end ScriptSandbox
