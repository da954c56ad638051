import Mathlib.Logic.Function.Basic
import ScriptSandbox.Proofs.Cache.Store
import ScriptSandbox.Proofs.Cache.Reopen

/-!
# Caches that share a store

Several caches may be opened over one store, each with a prefix of its own. A key is the prefix, a
colon and a name, and colons may stand in prefixes and in names, so different prefixes are not
enough to keep two caches apart: they have a key in common if one prefix goes on behind the other
with a colon and a part of a name (`storeKey_eq_cases`). Apart from that, a cache does not notice
the others. The main result is `tenants_independent`: if no two caches have a key in common, each
answers as if it were alone, whatever the others do in between, and recovers what it would have
recovered when it is opened again.

The proof compares each cache with one that is alone over a store of its own. The two have the same
stamps, and their stores agree at the keys of the cache; at other keys the cache changes nothing
(`Tenant`).
-/

namespace ScriptSandbox.CodeCache

open LawfulStore (content)
open KeywiseStore (cell)

/-! ## Keys of different caches -/

/-- Two caches have a key in common if they have the same prefix, or if one prefix goes on behind the
other with a colon and with what stands before a colon in the name. -/
theorem storeKey_eq_cases {p q name other : String} (h : storeKey p name = storeKey q other) :
    p = q ∨ (∃ rest, q = p ++ ":" ++ rest ∧ name = rest ++ ":" ++ other) ∨
      ∃ rest, p = q ++ ":" ++ rest ∧ other = rest ++ ":" ++ name := by
  have hchars : p.toList ++ ':' :: name.toList = q.toList ++ ':' :: other.toList := by
    have := congrArg String.toList h
    simpa [storeKey] using this
  have hlonger {p q name other : String} {more : List Char} (hq : q.toList = p.toList ++ more)
      (hname : ':' :: name.toList = more ++ ':' :: other.toList) :
      p = q ∨ ∃ rest, q = p ++ ":" ++ rest ∧ name = rest ++ ":" ++ other := by
    cases more with
    | nil => exact .inl (String.toList_inj.mp (by simpa using hq.symm))
    | cons c more =>
        obtain ⟨rfl, hname⟩ := List.cons.inj hname
        refine .inr ⟨String.ofList more, String.toList_inj.mp ?_, String.toList_inj.mp ?_⟩
        · simpa using hq
        · simpa using hname
  rcases List.append_eq_append_iff.mp hchars with ⟨more, hq, hname⟩ | ⟨more, hp, hother⟩
  · rcases hlonger hq hname with heq | hrest
    · exact .inl heq
    · exact .inr (.inl hrest)
  · rcases hlonger hp hother with heq | hrest
    · exact .inl heq.symm
    · exact .inr (.inr hrest)

/-! ## Steps -/

/-- What a step comes to. -/
inductive StepAnswer where
  | called (answer : CacheAnswer)
  /-- The cache was opened again, and goes on with these stamps. -/
  | recovered (stamps : Assoc Nat)
  /-- The cache could not be opened again; the old one stays. -/
  | refused (e : CacheError)

def StepAnswer.code? : StepAnswer → Option String
  | .called (.code found) => found
  | _ => none

section Steps

variable {σ : Type} [KeyValueStore σ]

def step (s : CacheSettings) (c : CodeCache σ) : CacheStep → StepAnswer × CodeCache σ
  | .call what reading => (.called (c.call reading what).1, (c.call reading what).2)
  | .reopen =>
    match openOver c.store s with
    | .ok reopened => (.recovered reopened.stamps, reopened)
    | .error e => (.refused e, c)

/-- What a cache that is alone answers, step by step. -/
def runSteps (s : CacheSettings) (c : CodeCache σ) : List CacheStep → List StepAnswer
  | [] => []
  | next :: steps => (c.step s next).1 :: (c.step s next).2.runSteps s steps

end Steps

/-! ## A cache among others -/

section Tenants

variable {σ : Type} [KeyValueStore σ] [KeywiseStore σ]

/-- What would be recovered depends on one key. -/
theorem storedStamps_congr {store store' : σ} {keyPrefix : String}
    (h : cell store (storeKey keyPrefix metaName) = cell store' (storeKey keyPrefix metaName)) :
    storedStamps store keyPrefix = storedStamps store' keyPrefix := by
  rw [storedStamps, storedStamps, KeywiseStore.content_congr h]

/-- A cache over a store that others use as well, and one that is alone: they are the same, but for
their stores, and these agree at the keys of the names that are the cache's own. The cache has no
other names, and what it would recover has none either. At other keys its store is as it was. -/
structure Tenant (own : String → Prop) (s : CacheSettings) (before : σ) (c alone : CodeCache σ) :
    Prop where
  reserved : own metaName
  keyPrefix : c.keyPrefix = s.keyPrefix
  same : alone = c.withStore alone.store
  inTime : InTime c
  clock : c.clock.last ≤ maxStamp
  names : ∀ name ∈ c.stamps.names, own name
  saved : ∀ m, storedStamps c.store s.keyPrefix = some m → ∀ name ∈ m.names, own name
  agree : ∀ name, own name →
    cell alone.store (storeKey s.keyPrefix name) = cell c.store (storeKey s.keyPrefix name)
  foreign : ∀ key, (∀ name, own name → key ≠ storeKey s.keyPrefix name) →
    cell c.store key = cell before key

namespace Tenant

variable {own : String → Prop} {s : CacheSettings} {before : σ} {c alone : CodeCache σ}
  {name code : String}

/-- Both stores may be changed at a key of the cache's own, in the same way. -/
theorem change (h : Tenant own s before c alone) (hname : own name) {store store' : σ}
    (hself : cell store' (storeKey s.keyPrefix name) = cell store (storeKey s.keyPrefix name))
    (hother : ∀ key, key ≠ storeKey s.keyPrefix name → cell store key = cell c.store key)
    (hother' : ∀ key, key ≠ storeKey s.keyPrefix name → cell store' key = cell alone.store key)
    (hsaved : name = metaName →
      ∀ m, storedStamps store s.keyPrefix = some m → ∀ name ∈ m.names, own name) :
    Tenant own s before (c.withStore store) (alone.withStore store') where
  reserved := h.reserved
  keyPrefix := h.keyPrefix
  same := by
    rw [h.same]
    rfl
  inTime := ⟨h.inTime.sorted, h.inTime.past⟩
  clock := h.clock
  names := h.names
  saved := by
    by_cases hmeta : name = metaName
    · exact hsaved hmeta
    · intro m hm
      have hkept := hother (storeKey s.keyPrefix metaName) (storeKey_ne_meta hmeta).symm
      exact h.saved m ((storedStamps_congr hkept).symm.trans hm)
  agree other hown := by
    by_cases heq : other = name
    · rw [heq]
      exact hself
    · have hne : storeKey s.keyPrefix other ≠ storeKey s.keyPrefix name := mt storeKey_inj.mp heq
      exact (hother' _ hne).trans ((h.agree other hown).trans (hother _ hne).symm)
  foreign key hkey := (hother key (hkey name hname)).trans (h.foreign key hkey)

/-- Other stamps will do if they are in time and have no other names. -/
theorem restamp (h : Tenant own s before c alone) {next : CodeCache σ} (hstore : next.store = c.store)
    (hkept : next.keyPrefix = c.keyPrefix) (hin : InTime next) (hclock : next.clock.last ≤ maxStamp)
    (hnames : ∀ name ∈ next.stamps.names, own name) :
    Tenant own s before next (next.withStore alone.store) where
  reserved := h.reserved
  keyPrefix := hkept.trans h.keyPrefix
  same := rfl
  inTime := hin
  clock := hclock
  names := hnames
  saved := hstore ▸ h.saved
  agree := hstore ▸ h.agree
  foreign := hstore ▸ h.foreign

theorem stamps_eq (h : Tenant own s before c alone) : alone.stamps = c.stamps := by
  rw [h.same]
  rfl

theorem prefix_eq (h : Tenant own s before c alone) : alone.keyPrefix = c.keyPrefix := by
  rw [h.same]
  rfl

theorem erase (h : Tenant own s before c alone) (name : String) :
    Tenant own s before { c with stamps := c.stamps.erase name }
      { alone with stamps := alone.stamps.erase name } := by
  have hsame : { alone with stamps := alone.stamps.erase name } =
      CodeCache.withStore { c with stamps := c.stamps.erase name } alone.store := by
    rw [h.same]
    rfl
  rw [hsame]
  refine h.restamp rfl rfl (h.inTime.erase name) h.clock fun other hother => ?_
  exact h.names other (List.mem_filter.mp (Assoc.names_erase ▸ hother)).1

theorem touch (h : Tenant own s before c alone) (hname : own name) {reading : Nat}
    (hreading : reading ≤ maxStamp) :
    Tenant own s before (c.touch name reading) (alone.touch name reading) := by
  have hsame : alone.touch name reading = (c.touch name reading).withStore alone.store := by
    rw [h.same]
    rfl
  have hclock : (c.touch name reading).clock.last ≤ maxStamp := by
    simp only [CodeCache.touch, Clock.tick]
    omega
  rw [hsame]
  refine h.restamp rfl rfl (h.inTime.touch h.clock name reading) hclock fun other hother => ?_
  obtain ⟨e, he, rfl⟩ := List.mem_map.mp hother
  rcases (Assoc.mem_put h.inTime.sorted).mp he with rfl | ⟨he, -⟩
  · exact hname
  · exact h.names e.1 (List.mem_map_of_mem he)

/-! ### Operations of the store -/

/-- The same may be written to both stores, at a key of the cache's own. -/
theorem set (h : Tenant own s before c alone) (hname : own name) (text : String)
    (hsaved : name = metaName → ∀ m,
      storedStamps (KeyValueStore.set c.store (storeKey s.keyPrefix name) text).2 s.keyPrefix = some m →
        ∀ name ∈ m.names, own name) :
    Tenant own s before
      (c.withStore (KeyValueStore.set c.store (storeKey s.keyPrefix name) text).2)
      (alone.withStore (KeyValueStore.set alone.store (storeKey s.keyPrefix name) text).2) := by
  refine h.change hname (KeywiseStore.set_congr text (h.agree name hname)).2 ?_ ?_ hsaved
  · exact fun key hkey => KeywiseStore.set_ne c.store text hkey
  · exact fun key hkey => KeywiseStore.set_ne alone.store text hkey

/-- The stamps are written under the reserved name. If that succeeds, they are what would be
recovered; otherwise nothing changes. -/
theorem persist (h : Tenant own s before c alone) : Tenant own s before c.persist alone.persist := by
  have hpersist (d : CodeCache σ) : d.persist = d.withStore
      (KeyValueStore.set d.store (storeKey d.keyPrefix metaName) (stampsText d.stamps)).2 := rfl
  have hsaved : ∀ m, storedStamps c.persist.store s.keyPrefix = some m →
      ∀ name ∈ m.names, own name := by
    intro m hm
    cases hset : (KeyValueStore.set c.store (storeKey c.keyPrefix metaName) (stampsText c.stamps)).1 with
    | ok =>
        have hsaved : c.persist.Saved := saved_persist h.inTime h.clock hset
        rw [Saved, CodeCache.persist, h.keyPrefix] at hsaved
        rw [CodeCache.persist, h.keyPrefix, hsaved] at hm
        obtain rfl := Option.some.inj hm
        exact h.names
    | error e =>
        have hkept : content c.persist.store (storeKey s.keyPrefix metaName) = _ :=
          LawfulStore.set_error (storeKey s.keyPrefix metaName) hset
        rw [storedStamps, hkept] at hm
        exact h.saved m hm
  rw [hpersist c, h.keyPrefix] at hsaved
  rw [hpersist c, hpersist alone, h.stamps_eq, h.prefix_eq, h.keyPrefix]
  exact h.set h.reserved _ fun _ => hsaved

theorem written (h : Tenant own s before c alone) (hname : own name) (hmeta : name ≠ metaName)
    (code : String) : Tenant own s before (c.written name code) (alone.written name code) := by
  rw [CodeCache.written, CodeCache.written, h.prefix_eq, h.keyPrefix]
  exact h.set hname code fun heq => absurd heq hmeta

theorem removeCode (h : Tenant own s before c alone) (hname : own name) :
    Tenant own s before (c.removeCode name) (alone.removeCode name) := by
  have hremove (d : CodeCache σ) : d.removeCode name = d.withStore
      (KeyValueStore.remove d.store (storeKey d.keyPrefix name)).2 := rfl
  rw [hremove c, hremove alone, h.prefix_eq, h.keyPrefix]
  refine h.change hname (KeywiseStore.remove_congr (h.agree name hname)).2 ?_ ?_ ?_
  · exact fun key hkey => KeywiseStore.remove_ne c.store hkey
  · exact fun key hkey => KeywiseStore.remove_ne alone.store hkey
  · -- Where the stamps are removed, none are left.
    rintro rfl m hm
    cases hdone : (KeyValueStore.remove c.store (storeKey s.keyPrefix metaName)).1 with
    | ok =>
        rw [storedStamps, LawfulStore.remove_ok _ hdone, if_pos rfl] at hm
        obtain rfl := Option.some.inj hm
        exact List.forall_mem_nil _
    | error e =>
        rw [storedStamps, LawfulStore.remove_error _ hdone] at hm
        exact h.saved m hm

theorem forget (h : Tenant own s before c alone) (hname : own name) :
    Tenant own s before (c.forget name) (alone.forget name) :=
  (h.erase name).removeCode hname

theorem withRoom (h : Tenant own s before c alone) (name : String) :
    Tenant own s before (c.withRoom name) (alone.withRoom name) := by
  have hcapacity : alone.capacity = c.capacity := by
    rw [h.same]
    rfl
  rw [CodeCache.withRoom, CodeCache.withRoom, evictOldest_eq, evictOldest_eq, h.stamps_eq, hcapacity]
  split
  · cases hold : oldest? c.stamps with
    | none => exact h
    | some e => exact h.forget (h.names e.1 (List.mem_map_of_mem (oldest?_least hold).1))
  · exact h

/-! ### Calls -/

theorem get (h : Tenant own s before c alone) (name : String) {reading : Nat}
    (hreading : reading ≤ maxStamp) :
    (alone.get name reading).1 = (c.get name reading).1 ∧
      Tenant own s before (c.get name reading).2 (alone.get name reading).2 := by
  rw [CodeCache.get, CodeCache.get, h.stamps_eq]
  split
  · exact ⟨rfl, h⟩
  · next hskip =>
      have hname : own name := by
        refine h.names name (Assoc.has_iff_mem_names.mp ?_)
        simp only [Bool.or_eq_true, not_or] at hskip
        simpa using hskip.2
      have hfound : KeyValueStore.get alone.store (storeKey alone.keyPrefix name) =
          KeyValueStore.get c.store (storeKey c.keyPrefix name) := by
        rw [h.prefix_eq, h.keyPrefix]
        exact KeywiseStore.get_congr (h.agree name hname)
      rw [hfound]
      split
      · exact ⟨rfl, (h.touch hname hreading).persist⟩
      · have hforgotten := (h.erase name).persist
        rw [h.stamps_eq] at hforgotten
        exact ⟨rfl, hforgotten⟩
      · exact ⟨rfl, h⟩

theorem set_of_own (h : Tenant own s before c alone) {name code : String}
    (hname : Keeps name code → own name) {reading : Nat} (hreading : reading ≤ maxStamp) :
    Tenant own s before (c.set name code reading) (alone.set name code reading) := by
  by_cases hkeeps : Keeps name code
  · have hroom := h.withRoom name
    have hwritten := hroom.written (hname hkeeps) hkeeps.2.2 code
    have hsame := (KeywiseStore.set_congr code (hroom.agree name (hname hkeeps))).1
    rw [set_of_keeps hkeeps, set_of_keeps hkeeps, hroom.prefix_eq, hroom.keyPrefix, hsame]
    split
    · exact (hwritten.touch (hname hkeeps) hreading).persist
    · exact hwritten.persist
  · rw [set_of_not_keeps hkeeps, set_of_not_keeps hkeeps]
    exact h

theorem foldl_removeCode (h : Tenant own s before c alone) {names : List String}
    (hnames : ∀ name ∈ names, own name) :
    Tenant own s before (names.foldl CodeCache.removeCode c)
      (names.foldl CodeCache.removeCode alone) := by
  induction names generalizing c alone with
  | nil => exact h
  | cons first names ih =>
      obtain ⟨hfirst, hrest⟩ := List.forall_mem_cons.mp hnames
      exact ih (h.removeCode hfirst) hrest

theorem clear (h : Tenant own s before c alone) : Tenant own s before c.clear alone.clear := by
  have hclear (d : CodeCache σ) : d.clear =
      { CodeCache.removeCode (d.stamps.names.foldl CodeCache.removeCode d) metaName with
        stamps := [] } := rfl
  have hemptied := (h.foldl_removeCode h.names).removeCode h.reserved
  have hnone : InTime c.clear := ⟨Assoc.sorted_nil, List.forall_mem_nil _⟩
  have hnext := hemptied.restamp (rfl : c.clear.store = _) rfl hnone hemptied.clock
    (List.forall_mem_nil _)
  have hsame : alone.clear = c.clear.withStore
      (CodeCache.removeCode (c.stamps.names.foldl CodeCache.removeCode alone) metaName).store := by
    rw [hclear, hclear, h.stamps_eq]
    exact congrArg (fun d : CodeCache σ => { d with stamps := [] }) hemptied.same
  rw [hsame]
  exact hnext

theorem call (h : Tenant own s before c alone) {what : CacheCall} {reading : Nat}
    (hset : ∀ name code, what = .set name code → Keeps name code → own name)
    (hreading : reading ≤ maxStamp) :
    (alone.call reading what).1 = (c.call reading what).1 ∧
      Tenant own s before (c.call reading what).2 (alone.call reading what).2 := by
  cases what with
  | get name =>
      obtain ⟨hanswer, hnext⟩ := h.get name hreading
      exact ⟨congrArg CacheAnswer.code hanswer, hnext⟩
  | set name code => exact ⟨rfl, h.set_of_own (hset name code rfl) hreading⟩
  | remove name =>
      simp only [CodeCache.call, remove_eq, h.stamps_eq]
      split
      · next hhas =>
          have hname := h.names name (Assoc.has_iff_mem_names.mp hhas)
          exact ⟨rfl, (h.forget hname).persist⟩
      · exact ⟨rfl, h⟩
  | clear => exact ⟨rfl, h.clear⟩
  | contains name =>
      have hhas : alone.contains name = c.contains name := congrArg (Assoc.has · name) h.stamps_eq
      exact ⟨congrArg CacheAnswer.flag hhas, h⟩
  | count => exact ⟨congrArg CacheAnswer.number (congrArg List.length h.stamps_eq), h⟩
  | keysByRecency =>
      have hkeys : alone.keysByRecency = c.keysByRecency := by
        rw [keysByRecency, keysByRecency, h.stamps_eq]
      exact ⟨congrArg CacheAnswer.names hkeys, h⟩

/-- What is recovered is the same for both. -/
theorem reopen (h : Tenant own s before c alone) :
    (alone.step s .reopen).1 = (c.step s .reopen).1 ∧
      Tenant own s before (c.step s .reopen).2 (alone.step s .reopen).2 := by
  have hopened : openOver alone.store s = (openOver c.store s).map (·.withStore alone.store) := by
    rw [openOver, openOver, KeywiseStore.get_congr (h.agree metaName h.reserved)]
    split
    · rfl
    · rfl
    · split <;> rfl
  simp only [CodeCache.step, hopened]
  cases hopen : openOver c.store s with
  | error e => exact ⟨rfl, h⟩
  | ok reopened =>
      obtain ⟨hin, hclock⟩ := inTime_of_openOver hopen
      obtain ⟨m, hstored, -, rfl⟩ := storedStamps_of_openOver hopen
      exact ⟨rfl, h.restamp rfl h.keyPrefix.symm hin hclock (h.saved m hstored)⟩

theorem step (h : Tenant own s before c alone) {next : CacheStep}
    (hset : ∀ name code reading, next = .call (.set name code) reading → Keeps name code → own name)
    (hreading : ∀ what reading, next = .call what reading → reading ≤ maxStamp) :
    (alone.step s next).1 = (c.step s next).1 ∧
      Tenant own s before (c.step s next).2 (alone.step s next).2 := by
  cases next with
  | call what reading =>
      obtain ⟨hanswer, hnext⟩ := h.call (fun name code hwhat => hset name code reading (hwhat ▸ rfl))
        (hreading what reading rfl)
      exact ⟨congrArg StepAnswer.called hanswer, hnext⟩
  | reopen => exact h.reopen

theorem elsewhere (h : Tenant own s before c alone) {store : σ}
    (hsame : ∀ name, own name →
      cell store (storeKey s.keyPrefix name) = cell c.store (storeKey s.keyPrefix name)) :
    Tenant own s store (c.withStore store) alone where
  reserved := h.reserved
  keyPrefix := h.keyPrefix
  same := by
    rw [h.same]
    rfl
  inTime := ⟨h.inTime.sorted, h.inTime.past⟩
  clock := h.clock
  names := h.names
  saved m hm := h.saved m ((storedStamps_congr (hsame metaName h.reserved)).symm.trans hm)
  agree name hname := (h.agree name hname).trans (hsame name hname).symm
  foreign _ _ := rfl

end Tenant

/-! ## Runs -/

/-- The names under which a cache may keep something in a run: the reserved one, those that it has,
and those that are set. -/
def Owns (c : CodeCache σ) (steps : List CacheStep) (name : String) : Prop :=
  name = metaName ∨ name ∈ c.stamps.names ∨
    ∃ code reading, .call (.set name code) reading ∈ steps ∧ Keeps name code

theorem tenant_of_openOver {store : σ} {s : CacheSettings} {c : CodeCache σ}
    (hopen : openOver store s = .ok c) (steps : List CacheStep) :
    Tenant (Owns c steps) s store (c.withStore store) c := by
  obtain ⟨hin, hclock⟩ := inTime_of_openOver hopen
  obtain ⟨m, hstored, -, rfl⟩ := storedStamps_of_openOver hopen
  have hnames : ∀ name ∈ m.names, Owns (CodeCache.withStamps store s m) steps name :=
    fun name hname => .inr (.inl hname)
  refine ⟨.inl rfl, rfl, rfl, hin, hclock, hnames, ?_, fun _ _ => rfl, fun _ _ => rfl⟩
  intro m' hm'
  obtain rfl := Option.some.inj (hstored.symm.trans hm')
  exact hnames

section Runs

variable {ι : Type} [DecidableEq ι]

/-- What concerns one of several caches. -/
def partOf {α : Type} (i : ι) (all : List (ι × α)) : List α :=
  (all.filter (·.1 = i)).map (·.2)

theorem partOf_cons {α : Type} (i j : ι) (a : α) (all : List (ι × α)) :
    partOf i ((j, a) :: all) = if j = i then a :: partOf i all else partOf i all := by
  by_cases hji : j = i <;> simp [partOf, hji]

/-- What several caches over one store answer, step by step. Each of them finds the store as the
others have left it. -/
def runShared (s : ι → CacheSettings) (store : σ) (caches : ι → CodeCache σ) :
    List (ι × CacheStep) → List (ι × StepAnswer)
  | [] => []
  | (i, next) :: steps =>
      let (answer, c) := ((caches i).withStore store).step (s i) next
      (i, answer) :: runShared s c.store (Function.update caches i c) steps

omit [KeywiseStore σ] in
theorem runShared_cons (s : ι → CacheSettings) (store : σ) (caches : ι → CodeCache σ) (i : ι)
    (next : CacheStep) (steps : List (ι × CacheStep)) :
    runShared s store caches ((i, next) :: steps) =
      (i, (((caches i).withStore store).step (s i) next).1) ::
        runShared s (((caches i).withStore store).step (s i) next).2.store
          (Function.update caches i (((caches i).withStore store).step (s i) next).2) steps := rfl

theorem runShared_of_tenants {own : ι → String → Prop} {s : ι → CacheSettings} {store : σ}
    {caches alone : ι → CodeCache σ} {steps : List (ι × CacheStep)}
    (hapart : ∀ i j, i ≠ j → ∀ name other, own i name → own j other →
      storeKey (s i).keyPrefix name ≠ storeKey (s j).keyPrefix other)
    (htenants : ∀ i, Tenant (own i) (s i) store ((caches i).withStore store) (alone i))
    (hset : ∀ i name code reading, (i, .call (.set name code) reading) ∈ steps →
      Keeps name code → own i name)
    (hreading : ∀ i what reading, (i, .call what reading) ∈ steps → reading ≤ maxStamp) (i : ι) :
    partOf i (runShared s store caches steps) = (alone i).runSteps (s i) (partOf i steps) := by
  induction steps generalizing store caches alone with
  | nil => rfl
  | cons first steps ih =>
      obtain ⟨j, next⟩ := first
      obtain ⟨hanswer, hnext⟩ := (htenants j).step
        (fun name code reading heq => hset j name code reading (heq ▸ List.mem_cons_self ..))
        (fun what reading heq => hreading j what reading (heq ▸ List.mem_cons_self ..))
      rw [runShared_cons, partOf_cons, partOf_cons]
      generalize ((caches j).withStore store).step (s j) next = done at hanswer hnext ⊢
      -- The step is one of the cache `j`; for the others it happens elsewhere in the store.
      have htenants' : ∀ k, Tenant (own k) (s k) done.2.store
          ((Function.update caches j done.2 k).withStore done.2.store)
          (Function.update alone j ((alone j).step (s j) next).2 k) := by
        intro k
        by_cases hkj : k = j
        · subst hkj
          rw [Function.update_self, Function.update_self]
          exact hnext.elsewhere fun _ _ => rfl
        · rw [Function.update_of_ne hkj, Function.update_of_ne hkj]
          refine (htenants k).elsewhere fun name hname => ?_
          exact hnext.foreign _ fun other hother => hapart k j hkj name other hname hother
      have hrest := ih htenants'
        (fun k name code reading hmem => hset k name code reading (List.mem_cons_of_mem _ hmem))
        (fun k what reading hmem => hreading k what reading (List.mem_cons_of_mem _ hmem))
      by_cases hji : j = i
      · subst hji
        rw [if_pos rfl, if_pos rfl, hrest, Function.update_self, runSteps, hanswer]
      · rw [if_neg hji, if_neg hji, hrest, Function.update_of_ne (Ne.symm hji)]

/-- Caches that are opened over one store do not notice each other if they have different prefixes
and no key in common: whatever the others do in between, each answers every step as if it were alone,
and recovers the same when it is opened again. Two of them can have a key in common only if one
prefix goes on behind the other with a colon, and a name begins with what stands behind that. -/
theorem tenants_independent {store : σ} {s : ι → CacheSettings} {opened : ι → CodeCache σ}
    {steps : List (ι × CacheStep)} (hopen : ∀ i, openOver store (s i) = .ok (opened i))
    (hreading : ∀ i what reading, (i, .call what reading) ∈ steps → reading ≤ maxStamp)
    (hdistinct : ∀ i j, (s i).keyPrefix = (s j).keyPrefix → i = j)
    (hnames : ∀ i j rest, (s j).keyPrefix = (s i).keyPrefix ++ ":" ++ rest →
      ∀ name other, Owns (opened i) (partOf i steps) name → Owns (opened j) (partOf j steps) other →
        name ≠ rest ++ ":" ++ other) (i : ι) :
    partOf i (runShared s store opened steps) = (opened i).runSteps (s i) (partOf i steps) := by
  have hmem {j : ι} {next : CacheStep} (h : (j, next) ∈ steps) : next ∈ partOf j steps := by
    simp [partOf, h]
  have hapart : ∀ i j, i ≠ j → ∀ name other, Owns (opened i) (partOf i steps) name →
      Owns (opened j) (partOf j steps) other →
        storeKey (s i).keyPrefix name ≠ storeKey (s j).keyPrefix other := by
    intro i j hij name other hname hother heq
    rcases storeKey_eq_cases heq with hsame | ⟨rest, hrest, hlong⟩ | ⟨rest, hrest, hlong⟩
    · exact hij (hdistinct i j hsame)
    · exact hnames i j rest hrest name other hname hother hlong
    · exact hnames j i rest hrest other name hother hname hlong
  refine runShared_of_tenants hapart (fun i => tenant_of_openOver (hopen i) (partOf i steps)) ?_
    hreading i
  intro j name code reading hset hkeeps
  exact .inr (.inr ⟨code, reading, hmem hset, hkeeps⟩)

end Runs

end Tenants

/-- One prefix goes on behind the other, but no name has a colon in it. Both caches have a package
`x`; when one of them is emptied, the other finds its own. -/
theorem tenants_independent_of_nested_prefixes :
    let s (i : Bool) : CacheSettings := { keyPrefix := if i then "a:b" else "a" }
    let opened (i : Bool) : CodeCache MemoryStore := withStamps {} (s i) []
    let steps : List (Bool × CacheStep) :=
      [(true, .call (.set "x" "1") 10), (false, .call (.set "x" "2") 20), (true, .reopen),
        (false, .call .clear 30), (true, .call (.get "x") 40)]
    (∀ i, openOver {} (s i) = .ok (opened i)) ∧
      partOf true (runShared s {} opened steps) =
        (opened true).runSteps (s true) (partOf true steps) ∧
      (partOf true (runShared s {} opened steps)).map StepAnswer.code? = [none, none, some "1"] := by
  intro s opened steps
  have hopen (i : Bool) : openOver {} (s i) = .ok (opened i) := rfl
  have hreading : ∀ i what reading, (i, .call what reading) ∈ steps → reading ≤ maxStamp := by
    intro i what reading hmem
    have hle : reading ≤ 40 := by
      simp [steps] at hmem
      omega
    exact hle.trans (by decide)
  have hown : ∀ i name, Owns (opened i) (partOf i steps) name → name ∈ [metaName, "x"] := by
    rintro i name (rfl | hmem | ⟨code, reading, hmem, -⟩)
    · simp
    · cases hmem
    · cases i <;> simp [steps, partOf] at hmem <;> simp [hmem]
  have hcolon : ∀ name ∈ [metaName, "x"], ':' ∉ name.toList := by decide
  have hnames : ∀ i j rest, (s j).keyPrefix = (s i).keyPrefix ++ ":" ++ rest →
      ∀ name other, Owns (opened i) (partOf i steps) name →
        Owns (opened j) (partOf j steps) other → name ≠ rest ++ ":" ++ other := by
    rintro i j rest - name other hname - rfl
    exact hcolon _ (hown i _ hname) (by simp)
  have halone := tenants_independent hopen hreading (by decide) hnames true
  refine ⟨hopen, halone, ?_⟩
  rw [halone]
  decide

/-- One prefix goes on behind the other, and so does a name of the shorter one: the second cache
finds what the first one has set. Alone it would find its own. -/
theorem common_key_interferes :
    let s (i : Bool) : CacheSettings := { keyPrefix := if i then "a:b" else "a" }
    let opened (i : Bool) : CodeCache MemoryStore := withStamps {} (s i) []
    let steps : List (Bool × CacheStep) :=
      [(true, .call (.set "x" "1") 1), (false, .call (.set "b:x" "2") 2), (true, .call (.get "x") 3)]
    (∀ i, openOver {} (s i) = .ok (opened i)) ∧ (s true).keyPrefix ≠ (s false).keyPrefix ∧
      (partOf true (runShared s {} opened steps)).map StepAnswer.code? = [none, some "2"] ∧
      ((opened true).runSteps (s true) (partOf true steps)).map StepAnswer.code? =
        [none, some "1"] := by
  intro s opened steps
  have hopen (i : Bool) : openOver {} (s i) = .ok (opened i) := rfl
  exact ⟨hopen, by decide, by decide, by decide⟩

end ScriptSandbox.CodeCache
