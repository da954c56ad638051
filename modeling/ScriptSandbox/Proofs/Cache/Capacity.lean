import ScriptSandbox.Proofs.Cache.Recency
import ScriptSandbox.Proofs.Cache.Stamps

/-!
# How many names a cache keeps

A call never takes a cache past its capacity, but it does not bring it back either: setting a new
name drops one other name at most, so a cache that was opened over the stamps of more names than it
may have goes on with as many of them until names are removed. The main result is
`within_capacity_iff`: a name that is set leaves the cache within its capacity exactly if the cache
has been within it at some time before. It holds for every store, whatever its operations do, since
a cache counts the names that it has in memory.
-/

namespace ScriptSandbox.CodeCache

/-- The names rise, and the capacity is that of the settings. -/
structure Sized {σ : Type} (s : CacheSettings) (c : CodeCache σ) : Prop where
  capacity : c.capacity = max s.capacity 1
  sorted : c.stamps.Sorted

section Counting

variable {σ : Type} [KeyValueStore σ] {s : CacheSettings} {c : CodeCache σ} {name code : String}
  {reading : Nat}

theorem Sized.of_openOver {store : σ} (hopen : openOver store s = .ok c) : Sized s c := by
  obtain ⟨m, -, -, -, ⟨hsorted, -⟩, rfl⟩ := openOver_cases hopen
  exact ⟨rfl, hsorted⟩

/-! ## Room for a name -/

omit [KeyValueStore σ] in
theorem Sized.capacity_pos (h : Sized s c) : 0 < c.capacity := by
  rw [h.capacity]
  omega

theorem withRoom_of_mem (hname : name ∈ c.stamps.names) : c.withRoom name = c := by
  have hhas : c.stamps.has name = true := Assoc.has_iff_mem_names.mpr hname
  rw [withRoom, hhas]
  rfl

/-- One name is dropped for a name that is new, if the cache is full. -/
theorem Sized.withRoom (h : Sized s c) (hname : name ∉ c.stamps.names) :
    Sized s (c.withRoom name) ∧ name ∉ (c.withRoom name).stamps.names ∧
      (c.withRoom name).count = if c.count < c.capacity then c.count else c.count - 1 := by
  have hhas : c.stamps.has name = false :=
    Bool.eq_false_iff.mpr fun hhas => hname (Assoc.has_iff_mem_names.mp hhas)
  rw [CodeCache.withRoom, hhas, evictOldest_eq]
  by_cases hroom : c.count < c.capacity
  · have hskip : (!false && decide (c.stamps.length ≥ c.capacity)) = false := by
      simpa [count] using hroom
    rw [hskip, if_neg Bool.false_ne_true, if_pos hroom]
    exact ⟨h, hname, rfl⟩
  · have hfull : (!false && decide (c.stamps.length ≥ c.capacity)) = true := by
      simpa [count] using hroom
    rw [if_pos hfull, if_neg hroom]
    cases hold : oldest? c.stamps with
    | none =>
        -- A cache that is full has a name.
        have hpos := h.capacity_pos
        have hnone := oldest?_eq_none_iff.mp hold
        simp only [count, hnone, List.length_nil] at hroom
        omega
    | some e =>
        have hold : e.1 ∈ c.stamps.names := List.mem_map_of_mem (oldest?_least hold).1
        have hlength := Assoc.length_erase h.sorted hold
        refine ⟨⟨h.capacity, h.sorted.erase⟩, ?_, ?_⟩
        · intro hmem
          have hkept : name ∈ (c.stamps.erase e.1).names := hmem
          rw [Assoc.names_erase] at hkept
          exact hname (List.mem_filter.mp hkept).1
        · change (c.stamps.erase e.1).length = c.stamps.length - 1
          omega

/-! ## One call -/

/-- What a name that is set does to the stamps: nothing; or room is made for it, and unless its code
cannot be written it gets a stamp. -/
theorem stamps_set (c : CodeCache σ) (name code : String) (reading : Nat) :
    (c.set name code reading).stamps = c.stamps ∨
      (c.set name code reading).stamps = (c.withRoom name).stamps ∨
      ∃ stamp, (c.set name code reading).stamps = (c.withRoom name).stamps.put name stamp := by
  by_cases hkeeps : Keeps name code
  · rw [set_of_keeps hkeeps]
    split
    · exact .inr (.inr ⟨_, rfl⟩)
    · exact .inr (.inl rfl)
  · rw [set_of_not_keeps hkeeps]
    exact .inl rfl

theorem capacity_set (c : CodeCache σ) (name code : String) (reading : Nat) :
    (c.set name code reading).capacity = c.capacity := by
  have hroom : (c.withRoom name).capacity = c.capacity := by
    rw [withRoom, evictOldest_eq]
    split
    · cases oldest? c.stamps <;> rfl
    · rfl
  by_cases hkeeps : Keeps name code
  · rw [set_of_keeps hkeeps]
    split <;> exact hroom
  · rw [set_of_not_keeps hkeeps]

/-- Setting a name keeps the number of names, or there is one more where there was room. There is
one fewer if room was made for code that could then not be written. -/
theorem Sized.set (h : Sized s c) (name code : String) (reading : Nat) :
    Sized s (c.set name code reading) ∧
      ((c.set name code reading).count = c.count ∨
        c.count < c.capacity ∧ (c.set name code reading).count = c.count + 1 ∨
        (c.set name code reading).count + 1 = c.count ∧
          (c.set name code reading).contains name = false) := by
  have hcapacity := (capacity_set c name code reading).trans h.capacity
  by_cases hname : name ∈ c.stamps.names
  · have hstamps := stamps_set c name code reading
    rw [withRoom_of_mem hname] at hstamps
    rcases hstamps with hsame | hsame | ⟨stamp, hput⟩
    · exact ⟨⟨hcapacity, hsame ▸ h.sorted⟩, .inl (congrArg List.length hsame)⟩
    · exact ⟨⟨hcapacity, hsame ▸ h.sorted⟩, .inl (congrArg List.length hsame)⟩
    · refine ⟨⟨hcapacity, hput ▸ h.sorted.put⟩, .inl ?_⟩
      rw [count, hput, Assoc.length_put h.sorted, if_pos hname, count]
  · obtain ⟨hroom, hnew, hleft⟩ := h.withRoom hname
    have hpos := h.capacity_pos
    rcases stamps_set c name code reading with hsame | hlost | ⟨stamp, hput⟩
    · exact ⟨⟨hcapacity, hsame ▸ h.sorted⟩, .inl (congrArg List.length hsame)⟩
    · have hcount : (c.set name code reading).count = (c.withRoom name).count :=
        congrArg List.length hlost
      have hgone : (c.set name code reading).contains name = false := by
        rw [contains, hlost]
        exact Bool.eq_false_iff.mpr fun hhas => hnew (Assoc.has_iff_mem_names.mp hhas)
      refine ⟨⟨hcapacity, hlost ▸ hroom.sorted⟩, ?_⟩
      rw [hcount, hleft]
      split
      · exact .inl rfl
      · exact .inr (.inr ⟨by omega, hgone⟩)
    · have hcount : (c.set name code reading).count = (c.withRoom name).count + 1 := by
        rw [count, hput, Assoc.length_put hroom.sorted, if_neg hnew, count]
      refine ⟨⟨hcapacity, hput ▸ hroom.sorted.put⟩, ?_⟩
      rw [hcount, hleft]
      split
      · next hlt => exact .inr (.inl ⟨hlt, rfl⟩)
      · exact .inl (by omega)

/-- A call takes no cache past its capacity, and a cache that is past it no further. -/
theorem Sized.call (h : Sized s c) (reading : Nat) (what : CacheCall) :
    Sized s (c.call reading what).2 ∧ (c.call reading what).2.count ≤ max c.count c.capacity := by
  have hstill : c.count ≤ max c.count c.capacity := Nat.le_max_left ..
  have herase (name : String) : (c.stamps.erase name).length ≤ max c.count c.capacity :=
    Nat.le_trans (List.length_filter_le ..) hstill
  cases what with
  | get name =>
      simp only [CodeCache.call, get]
      split
      · exact ⟨h, hstill⟩
      · next hskip =>
          have hname : name ∈ c.stamps.names := by
            simp only [Bool.or_eq_true, not_or] at hskip
            exact Assoc.has_iff_mem_names.mp (by simpa using hskip.2)
          split
          · refine ⟨⟨h.capacity, h.sorted.put⟩, ?_⟩
            have hlength : (c.touch name reading).count = c.count :=
              (Assoc.length_put h.sorted).trans (if_pos hname)
            exact hlength.trans_le hstill
          · exact ⟨⟨h.capacity, h.sorted.erase⟩, herase name⟩
          · exact ⟨h, hstill⟩
  | set name code =>
      obtain ⟨hset, hcount⟩ := h.set name code reading
      refine ⟨hset, ?_⟩
      simp only [CodeCache.call]
      omega
  | remove name =>
      simp only [CodeCache.call, remove_eq]
      split
      · exact ⟨⟨h.capacity, h.sorted.erase⟩, herase name⟩
      · exact ⟨h, hstill⟩
  | clear =>
      obtain ⟨store, hstore⟩ := clear_eq c
      rw [CodeCache.call, hstore]
      exact ⟨⟨h.capacity, Assoc.sorted_nil⟩, Nat.zero_le _⟩
  | contains name => exact ⟨h, hstill⟩
  | count => exact ⟨h, hstill⟩
  | keysByRecency => exact ⟨h, hstill⟩

/-! ## Runs -/

theorem Sized.run (h : Sized s c) (calls : List (CacheCall × Nat)) :
    Sized s (c.run calls).2 ∧ (c.run calls).2.count ≤ max c.count c.capacity := by
  induction calls generalizing c with
  | nil => exact ⟨h, Nat.le_max_left ..⟩
  | cons first calls ih =>
      obtain ⟨what, reading⟩ := first
      obtain ⟨hnext, hcount⟩ := h.call reading what
      obtain ⟨hlast, hle⟩ := ih hnext
      have hcapacity := hnext.capacity.trans h.capacity.symm
      refine ⟨hlast, Nat.le_trans hle ?_⟩
      rw [hcapacity]
      omega

theorem run_append (c : CodeCache σ) (before after : List (CacheCall × Nat)) :
    (c.run (before ++ after)).2 = ((c.run before).2.run after).2 := by
  induction before generalizing c with
  | nil => rfl
  | cons first before ih => exact ih (c.call first.2 first.1).2

end Counting

/-- A name that is set leaves a cache within its capacity exactly if the cache has been within it at
some time since it was opened, and it is so from then on. In any case there are no more names than
there were in the stamps over which it was opened, or than the capacity allows. -/
theorem within_capacity_iff {σ : Type} [KeyValueStore σ] {store : σ} {s : CacheSettings}
    {c : CodeCache σ} (hopen : openOver store s = .ok c) (calls : List (CacheCall × Nat))
    {name code : String} {reading : Nat}
    (hstored : ((c.run calls).2.set name code reading).contains name = true) :
    (((c.run calls).2.set name code reading).count ≤ max s.capacity 1 ↔
        ∃ earlier, earlier <+: calls ∧ (c.run earlier).2.count ≤ max s.capacity 1) ∧
      ((c.run calls).2.set name code reading).count ≤ max c.count (max s.capacity 1) := by
  have hopened : Sized s c := .of_openOver hopen
  obtain ⟨hbefore, hle⟩ := hopened.run calls
  obtain ⟨-, hcount⟩ := hbefore.set name code reading
  -- What was stored is there, so the number of names has not gone down.
  have hkept : ((c.run calls).2.set name code reading).count = (c.run calls).2.count ∨
      (c.run calls).2.count < max s.capacity 1 ∧
        ((c.run calls).2.set name code reading).count = (c.run calls).2.count + 1 := by
    rcases hcount with hsame | ⟨hroom, hmore⟩ | ⟨-, hlost⟩
    · exact .inl hsame
    · exact .inr ⟨hbefore.capacity ▸ hroom, hmore⟩
    · rw [hlost] at hstored
      cases hstored
  rw [hopened.capacity] at hle
  refine ⟨⟨fun hwithin => ⟨calls, List.prefix_refl _, by omega⟩, ?_⟩, by omega⟩
  rintro ⟨earlier, ⟨later, rfl⟩, hwithin⟩
  obtain ⟨hthen, -⟩ := hopened.run earlier
  have hafter := (hthen.run later).2
  rw [hthen.capacity, ← run_append] at hafter
  omega

/-- Three names in the store, where there is room for one: when two have been removed, the cache is
within its capacity, and another name leaves it there. -/
theorem within_capacity_after_removals :
    let store : MemoryStore :=
      ⟨[("jsbox-code:__meta__", "\x7b\"a\":1,\"b\":2,\"c\":3\x7d")]⟩
    let calls : List (CacheCall × Nat) := [(.remove "a", 4), (.remove "b", 5)]
    ∃ c, openOver store { capacity := 1 } = .ok c ∧ c.count = 3 ∧
      ((c.run calls).2.set "d" "4" 6).contains "d" = true ∧
        ((c.run calls).2.set "d" "4" 6).count ≤ 1 := by
  intro store calls
  have hopen : openOver store { capacity := 1 } =
      .ok (withStamps store { capacity := 1 } [("a", 1), ("b", 2), ("c", 3)]) := rfl
  have hstored : (((withStamps store { capacity := 1 } [("a", 1), ("b", 2), ("c", 3)]).run calls).2.set
      "d" "4" 6).contains "d" = true := by decide
  have hwithin := (within_capacity_iff hopen calls hstored).1.mpr
    ⟨calls, List.prefix_refl _, by decide⟩
  exact ⟨_, hopen, rfl, hstored, hwithin⟩

/-- A cache with three names is opened again with room for one. When another name is set, there are
still three. -/
theorem overfull_after_reopening :
    let store := ((inMemory { capacity := 3 }).run
      [(.set "a" "1", 1), (.set "b" "2", 2), (.set "c" "3", 3)]).2.store
    ∃ c, openOver store { capacity := 1 } = .ok c ∧ Keeps "d" "4" ∧
      (c.set "d" "4" 4).contains "d" = true ∧ ¬ (c.set "d" "4" 4).count ≤ max 1 1 := by
  intro store
  have hopen : openOver store { capacity := 1 } =
      .ok (withStamps store { capacity := 1 } [("a", 1), ("b", 2), ("c", 3)]) := rfl
  exact ⟨_, hopen, by decide, by decide, by decide⟩

end ScriptSandbox.CodeCache
