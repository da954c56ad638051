import ScriptSandbox.Proofs.Cache.Capacity
import ScriptSandbox.Proofs.Cache.Directory
import ScriptSandbox.Proofs.Cache.Faults

/-!
# Code that cannot be written

A name that is new to a full cache makes room first, and its code is written then. If that fails, the
room has been made all the same: the name used longest ago is gone, and the stamps are written once
more so that the store says so too. Nothing else is lost, and nothing at all where no room was needed
(`set_unwritten`); `evicted_for_nothing` is a cache that loses a name.

This is so in every cache that `Arises`, whatever the store held when it was opened. Its stamps may be
equal then; among equal ones the order is that of the names, in which both the oldest name is chosen
and the names are listed (`mergeSort_eq_cons`).
-/

namespace ScriptSandbox.CodeCache

/-! ## Names with equal stamps -/

/-- A name was used before another one, or at the same stamp and comes before it in the map. -/
def Before (a b : String × Nat) : Prop := a.2 < b.2 ∨ a.2 = b.2 ∧ a.1 < b.1

theorem Before.asymm {a b : String × Nat} (h : Before a b) : ¬ Before b a := by
  rcases h with hlt | ⟨heq, hname⟩
  · rintro (hlt' | ⟨heq', -⟩) <;> omega
  · rintro (hlt' | ⟨-, hname'⟩)
    · omega
    · exact String.lt_asymm hname hname'

variable {m : Assoc Nat} {e : String × Nat}

/-- Sorting by stamps keeps the order of the names among equal stamps. -/
theorem pairwise_mergeSort_before (hm : m.Sorted) :
    (m.mergeSort fun a b => decide (a.2 ≤ b.2)).Pairwise Before := by
  induction m with
  | nil =>
      rw [List.mergeSort_nil]
      exact .nil
  | cons first rest ih =>
      obtain ⟨hfirst, hrest⟩ := List.pairwise_cons.mp hm
      have htrans : ∀ a b c : String × Nat, decide (a.2 ≤ b.2) = true → decide (b.2 ≤ c.2) = true →
          decide (a.2 ≤ c.2) = true := by
        simp only [decide_eq_true_eq]
        omega
      have htotal : ∀ a b : String × Nat, (decide (a.2 ≤ b.2) || decide (b.2 ≤ a.2)) = true := by
        simp only [Bool.or_eq_true, decide_eq_true_eq]
        omega
      -- The sort puts the first pair behind those with smaller stamps only.
      obtain ⟨early, late, hwhole, hparts, hearly⟩ := List.mergeSort_cons htrans htotal first rest
      have hordered := List.pairwise_mergeSort htrans htotal (first :: rest)
      have hsame := List.mergeSort_perm rest fun a b => decide (a.2 ≤ b.2)
      have ih := ih hrest
      rw [hparts] at ih hsame
      rw [hwhole] at hordered ⊢
      obtain ⟨hbefore, hafter, hacross⟩ := List.pairwise_append.mp ih
      obtain ⟨-, hordered, -⟩ := List.pairwise_append.mp hordered
      refine List.pairwise_append.mpr ⟨hbefore, List.pairwise_cons.mpr ⟨?_, hafter⟩, ?_⟩
      · intro b hb
        have hle := of_decide_eq_true ((List.pairwise_cons.mp hordered).1 b hb)
        have hname := hfirst b (hsame.mem_iff.mp (List.mem_append_right _ hb))
        exact (Nat.lt_or_eq_of_le hle).imp_right (⟨·, hname⟩)
      · intro a ha b hb
        rcases List.mem_cons.mp hb with rfl | hb
        · refine .inl ?_
          simpa using hearly a ha
        · exact hacross a ha b hb

/-- The name used longest ago is before all others. -/
theorem oldest?_before (hm : m.Sorted) (hold : oldest? m = some e) :
    ∀ e' ∈ m, e'.1 ≠ e.1 → Before e e' := by
  induction m generalizing e with
  | nil => cases hold
  | cons first rest ih =>
      obtain ⟨hfirst, hrest⟩ := List.pairwise_cons.mp hm
      have hleast := (oldest?_least hold).2
      rw [oldest?] at hold
      intro e' he' hne
      split at hold
      · next hnone =>
          obtain rfl := Option.some.inj hold
          rw [oldest?_eq_none_iff.mp hnone, List.mem_singleton] at he'
          exact absurd (congrArg Prod.fst he') hne
      · next least hsome =>
          split at hold
          · next hlt =>
              obtain rfl := Option.some.inj hold
              rcases List.mem_cons.mp he' with rfl | he'
              · exact .inl hlt
              · exact ih hrest hsome e' he' hne
          · obtain rfl := Option.some.inj hold
            rcases List.mem_cons.mp he' with rfl | hlater
            · exact absurd rfl hne
            · exact (Nat.lt_or_eq_of_le (hleast e' he')).imp_right (⟨·, hfirst e' hlater⟩)

/-- The name used longest ago is the first to be listed, and the others are listed as they would be
without it. -/
theorem mergeSort_eq_cons (hm : m.Sorted) (hold : oldest? m = some e) :
    m.mergeSort (fun a b => decide (a.2 ≤ b.2)) =
      e :: (m.erase e.1).mergeSort fun a b => decide (a.2 ≤ b.2) := by
  have hrest : ((m.erase e.1).mergeSort fun a b => decide (a.2 ≤ b.2)).Perm (m.erase e.1) :=
    List.mergeSort_perm ..
  -- Both lists are in the one order that there is.
  have hbefore : (e :: (m.erase e.1).mergeSort fun a b => decide (a.2 ≤ b.2)).Pairwise Before := by
    refine List.pairwise_cons.mpr ⟨fun e' he' => ?_, pairwise_mergeSort_before hm.erase⟩
    obtain ⟨hmem, hne⟩ := Assoc.mem_erase.mp (hrest.mem_iff.mp he')
    exact oldest?_before hm hold e' hmem hne
  refine List.Perm.eq_of_pairwise (fun a b _ _ hab hba => absurd hba hab.asymm)
    (pairwise_mergeSort_before hm) hbefore ?_
  have hwhole := Assoc.perm_cons_erase hm (oldest?_least hold).1
  exact (List.mergeSort_perm ..).trans (hwhole.trans (hrest.symm.cons e))

/-! ## Caches that arise -/

section Arising

variable {σ : Type} [KeyValueStore σ] {s : CacheSettings} {c c' c'' : CodeCache σ}
  {name code : String} {reading n : Nat}

/-- A cache that was opened over a store, whatever the store held, and of which any calls were made.
Between two calls the store may become any other: others may write to it, and it may start to fail. -/
inductive Arises (s : CacheSettings) : CodeCache σ → Prop where
  | opened {store : σ} {c : CodeCache σ} (hopen : openOver store s = .ok c) : Arises s c
  | called {c : CodeCache σ} (before : Arises s c) (reading : Nat) (what : CacheCall) :
      Arises s (c.call reading what).2
  | meanwhile {c : CodeCache σ} (before : Arises s c) (store : σ) : Arises s (c.withStore store)

theorem Arises.sized (h : Arises s c) : Sized s c := by
  induction h with
  | opened hopen => exact .of_openOver hopen
  | called _ reading what ih => exact (ih.call reading what).1
  | meanwhile _ store ih => exact ⟨ih.capacity, ih.sorted⟩

/-! ## Reading -/

section Lawful

variable [LawfulStore σ]

/-- What a name is read as, where the store can be read. -/
def readable (c : CodeCache σ) (name : String) : Option String :=
  if name == metaName || !c.contains name then none else c.codeOf name

theorem get_eq_readable {found : Option String}
    (hget : KeyValueStore.get c.store (storeKey c.keyPrefix name) = .ok found) (reading : Nat) :
    (c.get name reading).1 = c.readable name := by
  rw [get, readable, contains, hget, codeOf, ← LawfulStore.get_ok hget]
  split
  · rfl
  · cases found <;> rfl

/-- So whatever is read is that. -/
theorem readable_of_get {value : String} (hget : (c.get name reading).1 = some value) :
    c.readable name = some value := by
  cases hfound : KeyValueStore.get c.store (storeKey c.keyPrefix name) with
  | ok found => rw [← get_eq_readable hfound reading, hget]
  | error e =>
      rw [get, hfound] at hget
      split at hget <;> cases hget

/-! ## What is lost -/

/-- The first names in the order of use are gone. Everything else is as before: which names there are
and how many, their order, and what each of them is read as. -/
structure Shortened (n : Nat) (c c' : CodeCache σ) : Prop where
  keysByRecency : c'.keysByRecency = c.keysByRecency.drop n
  contains : ∀ name, c'.contains name = (c.contains name && decide (name ∉ c.keysByRecency.take n))
  count : c'.count = c.count - n
  readable : ∀ name ∉ c.keysByRecency.take n, c'.readable name = c.readable name

/-- A cache with the same stamps and the same codes has lost nothing. -/
theorem Shortened.of_stamps_eq (hstamps : c'.stamps = c.stamps)
    (hcode : ∀ name, name ≠ metaName → c'.codeOf name = c.codeOf name) : Shortened 0 c c' where
  keysByRecency := by rw [CodeCache.keysByRecency, hstamps]; rfl
  contains name := by simp [CodeCache.contains, hstamps]
  count := congrArg List.length hstamps
  readable name _ := by
    rw [CodeCache.readable, CodeCache.readable, CodeCache.contains, CodeCache.contains, hstamps]
    split
    · rfl
    · next hskip =>
        simp only [Bool.or_eq_true, not_or, beq_iff_eq] at hskip
        exact hcode name hskip.1

theorem Shortened.trans (first : Shortened n c c') (second : Shortened 0 c' c'') :
    Shortened n c c'' where
  keysByRecency := second.keysByRecency.trans first.keysByRecency
  contains name := by rw [second.contains, first.contains]; simp
  count := second.count.trans first.count
  readable name hkept := (second.readable name List.not_mem_nil).trans (first.readable name hkept)

/-- Of a name that is forgotten nothing is left, and all that is left of the others. -/
theorem Sized.shortened_forget (h : Sized s c) {e : String × Nat} (hold : oldest? c.stamps = some e) :
    Shortened 1 c (c.forget e.1) := by
  have hkeys : c.keysByRecency = e.1 :: (c.forget e.1).keysByRecency :=
    congrArg Assoc.names (mergeSort_eq_cons h.sorted hold)
  have hcontains (name : String) :
      (c.forget e.1).contains name = (c.contains name && decide (name ∉ [e.1])) := by
    rw [Bool.eq_iff_iff, Bool.and_eq_true, decide_eq_true_eq, List.mem_singleton]
    simp only [CodeCache.contains, Assoc.has_iff_mem_names]
    exact Assoc.names_erase ▸ List.mem_filter.trans (and_congr_right fun _ => bne_iff_ne)
  refine ⟨by rw [hkeys]; rfl, ?_, ?_, ?_⟩
  · rw [hkeys]
    exact hcontains
  · exact Nat.eq_sub_of_add_eq (Assoc.length_erase h.sorted
      (List.mem_map_of_mem (oldest?_least hold).1))
  · rw [hkeys]
    intro name (hkept : name ∉ [e.1])
    rw [CodeCache.readable, CodeCache.readable, hcontains, decide_eq_true hkept, Bool.and_true]
    split
    · rfl
    · exact codeOf_removeCode _ fun heq => hkept (List.mem_singleton.mpr heq)

/-! ## Writing -/

/-- The code of a name is to be written, where there is room for it, and this fails. -/
def Unwritten (c : CodeCache σ) (name code : String) : Prop :=
  Keeps name code ∧ ∃ e, (KeyValueStore.set (c.withRoom name).store
    (storeKey (c.withRoom name).keyPrefix name) code).1 = .error e

omit [LawfulStore σ] in
/-- It is what a store that takes note would have noted. -/
theorem unwritten_iff_mem_events {c : CodeCache (Journal σ)} (hnone : c.store.events = [])
    (name code : String) (reading : Nat) :
    c.Unwritten name code ↔ .written (storeKey c.keyPrefix name) code false ∈
      (c.set name code reading).store.events := by
  rw [mem_events_set hnone, isOk_eq_false_iff, Unwritten]

/-- Code that cannot be written leaves the cache as it is where there is room for it. -/
theorem shortened_set (hfails : c.Unwritten name code) (reading : Nat) :
    Shortened 0 (c.withRoom name) (c.set name code reading) := by
  obtain ⟨hkeeps, e, herror⟩ := hfails
  rw [set_of_keeps hkeeps, herror]
  refine .of_stamps_eq rfl fun name' hmeta => ?_
  rw [codeOf_persist _ hmeta]
  exact LawfulStore.set_error _ herror

/-- Code that cannot be written takes nothing from a cache if the name is there already or there is
room for it. If room must be made, the name used longest ago is gone afterwards, and everything else
is as before. -/
theorem set_unwritten (h : Arises s c) (hfails : c.Unwritten name code) (reading : Nat) :
    (c.contains name = true ∨ c.count < c.capacity → Shortened 0 c (c.set name code reading)) ∧
      (c.contains name = false → c.capacity ≤ c.count →
        Shortened 1 c (c.set name code reading) ∧ (c.set name code reading).count + 1 = c.count) := by
  have hafter := shortened_set hfails reading
  refine ⟨fun hroom => ?_, fun hnew hfull => ?_⟩
  · have hsame : c.withRoom name = c := by
      rw [withRoom]
      refine if_neg ?_
      simp only [contains, count] at hroom
      rcases hroom with hhas | hlt
      · simp [hhas]
      · simp [hlt]
    rwa [hsame] at hafter
  · have hpos := h.sized.capacity_pos
    -- A cache that is full has a name, since its capacity is not zero.
    obtain ⟨e, hold⟩ : ∃ e, oldest? c.stamps = some e := by
      refine Option.ne_none_iff_exists'.mp fun hnone => ?_
      rw [count, oldest?_eq_none_iff.mp hnone, List.length_nil] at hfull
      omega
    have hroom : c.withRoom name = c.forget e.1 := by
      have hhas : c.stamps.has name = false := hnew
      have hmake : (!false && decide (c.stamps.length ≥ c.capacity)) = true := decide_eq_true hfull
      rw [withRoom, hhas, if_pos hmake, evictOldest_eq, hold]
      rfl
    rw [hroom] at hafter
    have hshort := (h.sized.shortened_forget hold).trans hafter
    refine ⟨hshort, ?_⟩
    rw [hshort.count]
    omega

end Lawful

end Arising

/-- A cache in a directory, with one name and room for no other. -/
def small : CodeCache FileStore := (withStamps {} { capacity := 1 } []).set "a" "1" 1

/-- A name whose file would have a name that is too long. -/
def overlong : String := String.ofList (List.replicate 125 'k')

theorem small_arises : Arises { capacity := 1 } small := by
  have hget : KeyValueStore.get ({} : FileStore) (storeKey "jsbox-code" metaName) = .ok none := by
    decide +kernel
  have hopen : openOver ({} : FileStore) { capacity := 1 } =
      .ok (withStamps {} { capacity := 1 } []) := by
    rw [openOver, hget]
  exact .called (.opened hopen) 1 (.set "a" "1")

theorem small_unwritten : small.Unwritten overlong "2" := by
  have hlong : 125 < (storeKey (small.withRoom overlong).keyPrefix overlong).utf8ByteSize := by
    decide +kernel
  refine ⟨by decide +kernel, .io, ?_⟩
  rw [FileStore.set_of_overlong _ _ hlong]

/-- A name that is too long takes the place of `a`, and then has none itself. -/
theorem set_unwritten_overlong :
    small.Unwritten overlong "2" ∧ small.contains "a" = true ∧
      Shortened 1 small (small.set overlong "2" 2) ∧
        (small.set overlong "2" 2).count + 1 = small.count :=
  have hlost := (set_unwritten small_arises small_unwritten 2).2 (by decide +kernel)
    (by decide +kernel)
  ⟨small_unwritten, by decide +kernel, hlost.1, hlost.2⟩

/-- Code that cannot be written takes nothing from a cache. -/
def LosesNothing (σ : Type) [KeyValueStore σ] [LawfulStore σ] : Prop :=
  ∀ (s : CacheSettings) (c : CodeCache σ), Arises s c → ∀ name code reading,
    c.Unwritten name code → Shortened 0 c (c.set name code reading)

/-- A name is lost to one that cannot be kept. -/
theorem evicted_for_nothing : ¬ LosesNothing FileStore := by
  intro hnothing
  have hcount := (hnothing _ _ small_arises overlong "2" 2 small_unwritten).count
  rw [(shortened_set small_unwritten 2).count] at hcount
  exact absurd hcount (by decide +kernel)

end ScriptSandbox.CodeCache
