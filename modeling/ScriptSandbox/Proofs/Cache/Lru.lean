import ScriptSandbox.Proofs.Cache.Call
import ScriptSandbox.Proofs.Cache.Recency

/-!
# The cache is a list of bounded length

`Lru` is what a cache is meant to be: the names with their code, the one used longest ago first, and
no more of them than the capacity. A cache refines such a list (`Refines`) as long as its stamps
rise strictly, and they do until the largest stamp is near. The main result is `answers_eq_lru`: over
a store that is empty at first and never fails, no sequence of calls and readings tells the two
apart.
-/

namespace ScriptSandbox

/-- A list of names with their code, the one used longest ago first. -/
structure Lru where
  capacity : Nat
  entries : List (String × String) := []

namespace Lru

def names (l : Lru) : List String := Assoc.names l.entries

def without (l : Lru) (name : String) : Lru := { l with entries := Assoc.erase l.entries name }

/-- A name goes to the end, with its code. -/
def use (l : Lru) (name code : String) : Lru :=
  { l with entries := Assoc.erase l.entries name ++ [(name, code)] }

/-- A name that is new and finds the list full drives out the first. -/
def withRoom (l : Lru) (name : String) : Lru :=
  if name ∉ l.names ∧ l.entries.length ≥ l.capacity then { l with entries := l.entries.tail } else l

def call (l : Lru) : CacheCall → CacheAnswer × Lru
  | .get name =>
    match Assoc.get? l.entries name with
    | some code => (.code (some code), l.use name code)
    | none => (.code none, l)
  | .set name code =>
    (.done, if CodeCache.Keeps name code then (l.withRoom name).use name code else l)
  | .remove name => (.flag (decide (name ∈ l.names)), l.without name)
  | .clear => (.done, { l with entries := [] })
  | .contains name => (.flag (decide (name ∈ l.names)), l)
  | .count => (.number l.entries.length, l)
  | .keysByRecency => (.names l.names, l)

def answers (l : Lru) : List CacheCall → List CacheAnswer
  | [] => []
  | what :: calls => (l.call what).1 :: (l.call what).2.answers calls

end Lru

namespace CodeCache

variable {σ : Type} [KeyValueStore σ] [LawfulStore σ]

/-! ## Refinement -/

/-- A cache holds what a list holds: the same names in the same order, each with its code. -/
structure Refines (c : CodeCache σ) (l : Lru) : Prop where
  capacity : c.capacity = l.capacity
  sorted : c.stamps.Sorted
  order : ∃ order, ByRecency c.stamps order ∧ order.names = l.names
  past : ∀ e ∈ c.stamps, e.2 ≤ c.clock.last
  code : ∀ e ∈ l.entries, c.codeOf e.1 = some e.2
  not_meta : metaName ∉ l.names

namespace Refines

variable {c : CodeCache σ} {l : Lru} {name code : String}

theorem mem_names (h : Refines c l) : name ∈ c.stamps.names ↔ name ∈ l.names := by
  obtain ⟨order, hrecent, hnames⟩ := h.order
  rw [← hnames, hrecent.names_perm.mem_iff]

theorem has (h : Refines c l) : c.stamps.has name = decide (name ∈ l.names) :=
  Bool.eq_iff_iff.mpr (Assoc.has_iff_mem_names.trans (h.mem_names.trans (decide_eq_true_iff.symm)))

theorem nodup_names (h : Refines c l) : l.names.Nodup := by
  obtain ⟨order, hrecent, hnames⟩ := h.order
  exact hnames ▸ hrecent.nodup_names h.sorted

theorem length (h : Refines c l) : c.stamps.length = l.entries.length := by
  obtain ⟨order, hrecent, hnames⟩ := h.order
  have hlengths := congrArg List.length hnames
  simpa [Assoc.names, Lru.names, hrecent.perm.length_eq] using hlengths

theorem keysByRecency (h : Refines c l) : c.keysByRecency = l.names := by
  obtain ⟨order, hrecent, hnames⟩ := h.order
  rw [keysByRecency_eq hrecent, hnames]

theorem ne_meta (h : Refines c l) (hname : name ∈ l.names) : name ≠ metaName :=
  fun hmeta => h.not_meta (hmeta ▸ hname)

theorem get?_of_mem (h : Refines c l) (hname : name ∈ l.names) :
    ∃ code, Assoc.get? l.entries name = some code ∧ c.codeOf name = some code := by
  obtain ⟨e, he, rfl⟩ := List.mem_map.mp hname
  exact ⟨e.2, (Assoc.get?_eq_some_iff h.nodup_names).mpr he, h.code e he⟩

/-! ## What keeps the refinement -/

/-- The stamps are written where no code is. -/
theorem persist (h : Refines c l) : Refines c.persist l where
  capacity := h.capacity
  sorted := h.sorted
  order := h.order
  past := h.past
  code e he := by
    rw [codeOf_persist c (h.ne_meta (List.mem_map_of_mem he))]
    exact h.code e he
  not_meta := h.not_meta

theorem forget (h : Refines c l) (name : String) : Refines (c.forget name) (l.without name) where
  capacity := h.capacity
  sorted := h.sorted.erase
  order := by
    obtain ⟨order, hrecent, hnames⟩ := h.order
    refine ⟨order.erase name, hrecent.erase name, ?_⟩
    rw [Assoc.names_erase, hnames]
    exact Assoc.names_erase.symm
  past e he := h.past e (Assoc.mem_erase.mp he).1
  code e he := by
    obtain ⟨he, hne⟩ := Assoc.mem_erase.mp he
    exact (codeOf_removeCode { c with stamps := c.stamps.erase name } hne).trans (h.code e he)
  not_meta hmem := by
    rw [Lru.names, Lru.without, Assoc.names_erase] at hmem
    exact h.not_meta (List.mem_filter.mp hmem).1

/-- A name whose code the store has, while it has kept the other codes, may be used: its stamp is
later than all others. -/
theorem touch (h : Refines c l) {store : σ} (hmeta : name ≠ metaName)
    (hself : (c.withStore store).codeOf name = some code)
    (hother : ∀ name', name' ≠ name → (c.withStore store).codeOf name' = c.codeOf name')
    (hclock : c.clock.last < maxStamp) (reading : Nat) :
    Refines ((c.withStore store).touch name reading) (l.use name code) := by
  have hlater : ∀ e ∈ c.stamps, e.2 < (c.clock.tick reading).1 := by
    intro e he
    have hpast := h.past e he
    simp only [Clock.tick]
    omega
  obtain ⟨order, hrecent, hnames⟩ := h.order
  have hcodes : ∀ e ∈ (l.use name code).entries, (c.withStore store).codeOf e.1 = some e.2 := by
    intro e he
    rcases List.mem_append.mp he with he | he
    · obtain ⟨he, hne⟩ := Assoc.mem_erase.mp he
      exact (hother _ hne).trans (h.code e he)
    · obtain rfl := List.mem_singleton.mp he
      exact hself
  have hlast : (l.use name code).names = l.names.filter (· != name) ++ [name] :=
    Assoc.names_erase_append l.entries name code
  refine ⟨h.capacity, h.sorted.put, ⟨_, hrecent.put h.sorted hlater, ?_⟩, ?_, hcodes, ?_⟩
  · rw [hlast, Assoc.names_erase_append, hnames]
  · intro e he
    rcases (Assoc.mem_put h.sorted).mp he with rfl | ⟨he, -⟩
    · exact Nat.le_refl _
    · exact Nat.le_of_lt (hlater e he)
  · rw [hlast]
    intro hmem
    rcases List.mem_append.mp hmem with hmem | hmem
    · exact h.not_meta (List.mem_filter.mp hmem).1
    · exact hmeta (List.mem_singleton.mp hmem).symm

/-- Removing the first name leaves the others. -/
theorem without_head (h : Refines c l) {e : String × String} {rest : List (String × String)}
    (hentries : l.entries = e :: rest) : l.without e.1 = { l with entries := l.entries.tail } := by
  have hnodup : (e.1 :: Assoc.names rest).Nodup := by
    have := h.nodup_names
    rwa [Lru.names, hentries] at this
  rw [Lru.without, hentries, Assoc.erase_cons, if_pos rfl,
    Assoc.erase_of_not_mem (List.nodup_cons.mp hnodup).1]
  rfl

theorem withRoom (h : Refines c l) (name : String) :
    Refines (c.withRoom name) (l.withRoom name) := by
  have hfull : (!c.stamps.has name && c.stamps.length ≥ c.capacity) = true ↔
      name ∉ l.names ∧ l.entries.length ≥ l.capacity := by
    simp [h.has, h.length, h.capacity]
  rw [CodeCache.withRoom, Lru.withRoom]
  by_cases hroom : name ∉ l.names ∧ l.entries.length ≥ l.capacity
  · rw [if_pos hroom, if_pos (hfull.mpr hroom), evictOldest_eq]
    obtain ⟨order, hrecent, hnames⟩ := h.order
    rw [oldest?_eq_head? hrecent]
    cases order with
    | nil =>
        have hnone : l.entries = [] := List.map_eq_nil_iff.mp hnames.symm
        have htail : { l with entries := l.entries.tail } = l := by
          rw [hnone, List.tail_nil, ← hnone]
        rw [htail]
        exact h
    | cons first rest =>
        obtain ⟨e, later, hentries, hfirst, -⟩ := List.map_eq_cons_iff.mp hnames.symm
        rw [← h.without_head hentries, hfirst]
        exact h.forget first.1
  · rw [if_neg hroom, if_neg fun hf => hroom (hfull.mp hf)]
    exact h

end Refines

/-! ## One call -/

/-- A call is answered as the list answers it, and the cache goes on refining the list. -/
theorem Refines.call [ReliableStore σ] {c : CodeCache σ} {l : Lru} (h : Refines c l)
    (hclock : c.clock.last < maxStamp) (reading : Nat) (what : CacheCall) :
    (c.call reading what).1 = (l.call what).1 ∧
      Refines (c.call reading what).2 (l.call what).2 := by
  cases what with
  | get name =>
      by_cases hname : name ∈ l.names
      · obtain ⟨code, hget, hcode⟩ := h.get?_of_mem hname
        have hmeta := h.ne_meta hname
        have hfound := (get_eq_content c.store (storeKey c.keyPrefix name)).trans
          (congrArg Except.ok hcode)
        have hhas : c.stamps.has name = true := by rw [h.has, decide_eq_true hname]
        simp only [CodeCache.call, Lru.call, get_of_found hhas hmeta hfound, hget, true_and]
        exact (h.touch hmeta hcode (fun _ _ => rfl) hclock reading).persist
      · have hnone : Assoc.get? l.entries name = none :=
          Assoc.has_eq_false_iff.mp
            (Bool.eq_false_iff.mpr fun hhas => hname (Assoc.has_iff_mem_names.mp hhas))
        have hhas : c.stamps.has name = false := by rw [h.has, decide_eq_false hname]
        simp only [CodeCache.call, Lru.call, get_of_not_has hhas, hnone, true_and]
        exact h
  | set name code =>
      simp only [CodeCache.call, Lru.call, true_and]
      by_cases hkeeps : Keeps name code
      · have hset := ReliableStore.set_eq_ok (c.withRoom name).store
          (storeKey (c.withRoom name).keyPrefix name) code
        rw [if_pos hkeeps, set_of_keeps hkeeps, hset]
        refine Refines.persist ((h.withRoom name).touch hkeeps.2.2 ?_ ?_ ?_ reading)
        · exact (LawfulStore.set_ok _ hset).trans (if_pos rfl)
        · intro name' hne
          exact content_set_of_ne _ _ fun heq => hne (storeKey_inj.mp heq)
        · rw [withRoom_clock]
          exact hclock
      · rw [if_neg hkeeps, set_of_not_keeps hkeeps]
        exact h
  | remove name =>
      simp only [CodeCache.call, Lru.call, remove_eq, h.has]
      by_cases hname : name ∈ l.names
      · rw [if_pos (decide_eq_true hname)]
        exact ⟨congrArg _ (decide_eq_true hname).symm, (h.forget name).persist⟩
      · have hsame : l.without name = l := by rw [Lru.without, Assoc.erase_of_not_mem hname]
        rw [hsame, if_neg fun hmem => hname (of_decide_eq_true hmem)]
        exact ⟨congrArg _ (decide_eq_false hname).symm, h⟩
  | clear =>
      obtain ⟨store, hstore⟩ := clear_eq c
      simp only [CodeCache.call, Lru.call, hstore, true_and]
      exact ⟨h.capacity, Assoc.sorted_nil, ⟨[], .nil, rfl⟩, List.forall_mem_nil _,
        List.forall_mem_nil _, List.not_mem_nil⟩
  | contains name => exact ⟨congrArg CacheAnswer.flag h.has, h⟩
  | count => exact ⟨congrArg CacheAnswer.number h.length, h⟩
  | keysByRecency => exact ⟨congrArg CacheAnswer.names h.keysByRecency, h⟩

/-! ## Runs -/

/-- A run is answered as the list answers it, if no reading comes so close to the largest stamp that
the stamps of the run cannot rise. -/
theorem Refines.run [ReliableStore σ] {c : CodeCache σ} {l : Lru} (h : Refines c l)
    {calls : List (CacheCall × Nat)} (hclock : c.clock.last + calls.length < maxStamp)
    (hcalls : ∀ call ∈ calls, call.2 + calls.length < maxStamp) :
    (c.run calls).1 = l.answers (calls.map (·.1)) := by
  induction calls generalizing c l with
  | nil => rfl
  | cons first calls ih =>
      obtain ⟨what, reading⟩ := first
      rw [List.length_cons] at hclock hcalls
      obtain ⟨hanswer, hnext⟩ := h.call (by omega) reading what
      have hfirst := hcalls _ (List.mem_cons_self ..)
      have hlater : ∀ call ∈ calls, call.2 + calls.length < maxStamp := by
        intro call hcall
        have := hcalls call (List.mem_cons_of_mem _ hcall)
        omega
      have hle := call_clock_le c reading what
      rw [run_cons, hanswer, ih hnext (by omega) hlater]
      rfl

theorem refines_withStamps (store : σ) (s : CacheSettings) :
    Refines (withStamps store s []) ⟨max s.capacity 1, []⟩ where
  capacity := rfl
  sorted := Assoc.sorted_nil
  order := ⟨[], .nil, rfl⟩
  past := List.forall_mem_nil _
  code := List.forall_mem_nil _
  not_meta := List.not_mem_nil

/-- A cache in memory, and one that is opened over an empty store that never fails, answer every
sequence of calls as the list does, whatever the wall clock reads, as long as no reading is so late
that the stamps of the run would reach the largest one. -/
theorem answers_eq_lru [ReliableStore σ] (store : σ) (s : CacheSettings)
    (hempty : ∀ key, LawfulStore.content store key = none) (calls : List (CacheCall × Nat))
    (hcalls : ∀ call ∈ calls, call.2 + calls.length < maxStamp) :
    ((inMemory s).run calls).1 = Lru.answers ⟨max s.capacity 1, []⟩ (calls.map (·.1)) ∧
      ∃ c, openOver store s = .ok c ∧
        (c.run calls).1 = Lru.answers ⟨max s.capacity 1, []⟩ (calls.map (·.1)) := by
  have hclock : 0 + calls.length < maxStamp := by
    cases calls with
    | nil => decide
    | cons call calls =>
        have := hcalls call (List.mem_cons_self ..)
        omega
  refine ⟨(refines_withStamps ({} : MemoryStore) s).run hclock hcalls, withStamps store s [], ?_,
    (refines_withStamps store s).run hclock hcalls⟩
  rw [openOver, get_eq_content, hempty]

/-- Two names fill the cache while the wall clock runs backwards; the third drives out the one that
was not looked at since. -/
theorem answers_eq_lru_backwards :
    let calls : List (CacheCall × Nat) :=
      [(.set "a" "1", 90), (.set "b" "2", 80), (.get "a", 70), (.set "c" "3", 60),
        (.set "__meta__" "4", 60), (.keysByRecency, 50), (.get "b", 40)]
    Lru.answers ⟨2, []⟩ (calls.map (·.1)) =
        [.done, .done, .code (some "1"), .done, .done, .names ["a", "c"], .code none] ∧
      ((inMemory { capacity := 2 }).run calls).1 = Lru.answers ⟨2, []⟩ (calls.map (·.1)) ∧
      ∃ c, openOver (σ := MemoryStore) {} { capacity := 2 } = .ok c ∧
        (c.run calls).1 = Lru.answers ⟨2, []⟩ (calls.map (·.1)) :=
  ⟨by decide, answers_eq_lru (σ := MemoryStore) {} { capacity := 2 } (fun _ => rfl) _ (by decide)⟩

end CodeCache

end ScriptSandbox
