import ScriptSandbox.Proofs.Cache.Call
import ScriptSandbox.Proofs.Json.Decodes
import ScriptSandbox.Proofs.Json.Gives

/-!
# The stamps in the store

A cache writes its stamps to its store, and one that is opened over the store reads them there. What
is read is what was written (`stampsDecoder_stampsText`), so a cache whose last writing succeeded
has its stamps in the store (`Saved`). That needs stamps which are numbers of 64 bits, and a cache
has them as long as its clock has (`InTime`).
-/

namespace ScriptSandbox.CodeCache

open LawfulStore (content)

/-! ## Stamps as text -/

/-- Stamps are read back as they were written. -/
theorem stampsDecoder_stampsText {m : Assoc Nat} (hm : m.Sorted)
    (hmax : ∀ e ∈ m, e.2 ≤ maxStamp) : stampsDecoder.run (stampsText m) = .ok m := by
  have hfits : ∀ e ∈ m, e.2 < Nat.pow 2 64 := by
    intro e he
    have hpos : 0 < Nat.pow 2 64 := by decide
    have hle := hmax e he
    rw [maxStamp] at hle
    omega
  have hwhole : (Json.Value.object (m.map fun e => (e.1, .number (.natural e.2)))).Whole :=
    .object (List.forall_mem_map.mpr fun e _ => .natural e.2)
  have halone : (Json.Decoder.natural "u64").members.alone 128
      (.object (m.map fun e => (e.1, .number (.plain false e.2)))) = some m :=
    Json.Decoder.members_alone (fun n => .number (.plain false n))
      (Json.Decoder.natural_local "u64")
      (fun e he => Json.Decoder.natural_alone "u64" _ (hfits e he)) (by decide)
  have hread := (Json.Decoder.members_local (Json.Decoder.natural_local "u64")).run_eq hwhole
    (by simpa [Json.Value.written, Function.comp_def] using halone) (List.mem_cons_self ..)
  rw [stampsDecoder, Json.Decoder.run_map, stampsText, hread]
  exact congrArg _ (Assoc.ofPairs_of_sorted hm)

/-- Whatever text is read as stamps, they are numbers of 64 bits. -/
theorem stampsDecoder_ok {text : String} {m : Assoc Nat} (h : stampsDecoder.run text = .ok m) :
    m.Sorted ∧ ∀ e ∈ m, e.2 ≤ maxStamp := by
  rw [stampsDecoder, Json.Decoder.run_map] at h
  cases hread : (Json.Decoder.natural "u64").members.run text with
  | error e => rw [hread] at h; cases h
  | ok pairs =>
      rw [hread] at h
      obtain rfl := Except.ok.inj h
      have hgives := (Json.Decoder.members_gives (Json.Decoder.natural_gives "u64")).run hread
      refine ⟨Assoc.sorted_ofPairs pairs, fun e he => ?_⟩
      have hlt := hgives e (Assoc.mem_of_mem_ofPairs he)
      rw [maxStamp]
      omega

/-! ## Stamps and their clock -/

/-- The names rise, and no stamp is later than the clock. -/
structure InTime {σ : Type} (c : CodeCache σ) : Prop where
  sorted : c.stamps.Sorted
  past : ∀ e ∈ c.stamps, e.2 ≤ c.clock.last

namespace InTime

variable {σ : Type} {c : CodeCache σ}

theorem erase (h : InTime c) (name : String) : InTime { c with stamps := c.stamps.erase name } :=
  ⟨h.sorted.erase, fun e he => h.past e (Assoc.mem_erase.mp he).1⟩

/-- A clock that has not gone past the largest stamp does not run backwards. -/
theorem touch (h : InTime c) (hclock : c.clock.last ≤ maxStamp) (name : String) (reading : Nat) :
    InTime (c.touch name reading) := by
  refine ⟨h.sorted.put, ?_⟩
  intro e he
  rcases (Assoc.mem_put h.sorted).mp he with rfl | ⟨he, -⟩
  · exact Nat.le_refl _
  · have hpast := h.past e he
    simp only [CodeCache.touch, Clock.tick]
    omega

theorem withStamps {store : σ} {s : CacheSettings} {m : Assoc Nat} (hm : m.Sorted) :
    InTime (CodeCache.withStamps store s m) := by
  refine ⟨hm, fun e he => ?_⟩
  have hmem : e.2 ∈ m.map (·.2) := List.mem_map_of_mem he
  obtain ⟨latest, hlatest⟩ := Option.ne_none_iff_exists'.mp (mt List.max?_eq_none_iff.mp
    (List.ne_nil_of_mem hmem))
  have hle := (List.max?_eq_some_iff.mp hlatest).2 _ hmem
  simp only [CodeCache.withStamps, Clock.startingAfter, hlatest, Option.getD_some]
  exact hle

end InTime

section Calls

variable {σ : Type} [KeyValueStore σ] {c : CodeCache σ}

/-- A cache that has removed all codes from its store. -/
def emptied (c : CodeCache σ) : CodeCache σ := c.stamps.names.foldl removeCode c

/-- A cache that could be opened has the stamps that the store had for it, or none if there was no
text. -/
theorem openOver_cases {store : σ} {s : CacheSettings} (h : openOver store s = .ok c) :
    ∃ (m : Assoc Nat) (found : Option String),
      KeyValueStore.get store (storeKey s.keyPrefix metaName) = .ok found ∧
      (match found with
        | none => m = []
        | some text => stampsDecoder.run text = .ok m) ∧
      (m.Sorted ∧ ∀ e ∈ m, e.2 ≤ maxStamp) ∧ c = withStamps store s m := by
  rw [openOver] at h
  split at h
  · cases h
  · next hget =>
      obtain rfl := Except.ok.inj h
      exact ⟨[], none, hget, rfl, ⟨Assoc.sorted_nil, List.forall_mem_nil _⟩, rfl⟩
  · next text hget =>
      split at h
      · next m hread =>
          obtain rfl := Except.ok.inj h
          exact ⟨m, some text, hget, hread, stampsDecoder_ok hread, rfl⟩
      · cases h

theorem inTime_of_openOver {store : σ} {s : CacheSettings} (h : openOver store s = .ok c) :
    InTime c ∧ c.clock.last ≤ maxStamp := by
  obtain ⟨m, -, -, -, ⟨hsorted, hmax⟩, rfl⟩ := openOver_cases h
  refine ⟨.withStamps hsorted, ?_⟩
  cases hlatest : (m.map (·.2)).max? with
  | none => simp [withStamps, Clock.startingAfter, hlatest]
  | some latest =>
      obtain ⟨e, he, rfl⟩ := List.mem_map.mp (List.max?_mem hlatest)
      simp only [withStamps, Clock.startingAfter, hlatest, Option.getD_some]
      exact hmax e he

theorem InTime.withRoom (h : InTime c) (name : String) : InTime (c.withRoom name) := by
  rw [CodeCache.withRoom, evictOldest_eq]
  split
  · cases oldest? c.stamps with
    | none => exact h
    | some e => exact ⟨(h.erase e.1).sorted, (h.erase e.1).past⟩
  · exact h

/-- A call leaves the cache as it is, or its last deed is to write the stamps; only `clear` removes
them instead. -/
theorem call_ends (c : CodeCache σ) (reading : Nat) {what : CacheCall} (hclear : what ≠ .clear) :
    (c.call reading what).2 = c ∨
      ∃ last, (c.call reading what).2 = last.persist ∧
        (InTime c → c.clock.last ≤ maxStamp → InTime last) := by
  cases what with
  | get name =>
      simp only [call, CodeCache.get]
      split
      · exact .inl rfl
      · split
        · exact .inr ⟨_, rfl, fun h hclock => h.touch hclock name reading⟩
        · exact .inr ⟨_, rfl, fun h _ => h.erase name⟩
        · exact .inl rfl
  | set name code =>
      by_cases hkeeps : Keeps name code
      · have hroom (h : InTime c) : InTime ((c.withRoom name).written name code) :=
          ⟨(h.withRoom name).sorted, (h.withRoom name).past⟩
        have hclock (h : c.clock.last ≤ maxStamp) :
            ((c.withRoom name).written name code).clock.last ≤ maxStamp :=
          (congrArg Clock.last (withRoom_clock c name)).trans_le h
        refine .inr ⟨_, set_of_keeps hkeeps reading, fun h hle => ?_⟩
        split
        · exact (hroom h).touch (hclock hle) name reading
        · exact hroom h
      · exact .inl (set_of_not_keeps hkeeps reading)
  | remove name =>
      simp only [call, remove_eq]
      split
      · exact .inr ⟨_, rfl, fun h _ => ⟨(h.erase name).sorted, (h.erase name).past⟩⟩
      · exact .inl rfl
  | clear => exact absurd rfl hclear
  | contains name => exact .inl rfl
  | count => exact .inl rfl
  | keysByRecency => exact .inl rfl

theorem InTime.call (h : InTime c) (hclock : c.clock.last ≤ maxStamp) (reading : Nat)
    (what : CacheCall) : InTime (c.call reading what).2 := by
  by_cases hclear : what = .clear
  · obtain ⟨store, hstore⟩ := clear_eq c
    rw [hclear, CodeCache.call, hstore]
    exact ⟨Assoc.sorted_nil, List.forall_mem_nil _⟩
  · rcases call_ends c reading hclear with hsame | ⟨last, hlast, hin⟩
    · rw [hsame]
      exact h
    · rw [hlast]
      exact ⟨(hin h hclock).sorted, (hin h hclock).past⟩

end Calls

/-! ## What the store has -/

variable {σ : Type} [KeyValueStore σ] [LawfulStore σ]

/-- The stamps that a store holds under a prefix, if they can be read. No text stands for none. -/
def storedStamps (store : σ) (keyPrefix : String) : Option (Assoc Nat) :=
  match content store (storeKey keyPrefix metaName) with
  | none => some []
  | some text => (stampsDecoder.run text).toOption

/-- The store holds the stamps that the cache has. -/
def Saved (c : CodeCache σ) : Prop := storedStamps c.store c.keyPrefix = some c.stamps

theorem storedStamps_of_openOver {store : σ} {s : CacheSettings} {c : CodeCache σ}
    (h : openOver store s = .ok c) :
    ∃ m, storedStamps store s.keyPrefix = some m ∧ m.Sorted ∧ c = withStamps store s m := by
  obtain ⟨m, found, hget, hread, ⟨hsorted, -⟩, hc⟩ := openOver_cases h
  refine ⟨m, ?_, hsorted, hc⟩
  rw [storedStamps, ← LawfulStore.get_ok hget]
  cases found with
  | none => exact congrArg some hread.symm
  | some text => exact congrArg Except.toOption hread

theorem openOver_of_storedStamps [ReliableStore σ] {store : σ} {s : CacheSettings} {m : Assoc Nat}
    (h : storedStamps store s.keyPrefix = some m) : openOver store s = .ok (withStamps store s m) := by
  rw [storedStamps] at h
  rw [openOver, get_eq_content]
  split at h
  · next hnone =>
      obtain rfl := Option.some.inj h
      rw [hnone]
  · next text hsome =>
      rw [hsome]
      cases hread : stampsDecoder.run text with
      | error e => rw [hread] at h; cases h
      | ok read =>
          rw [hread] at h
          obtain rfl := Option.some.inj h
          simp only [hread]

theorem saved_persist {c : CodeCache σ} (h : InTime c) (hclock : c.clock.last ≤ maxStamp)
    (hset : (KeyValueStore.set c.store (storeKey c.keyPrefix metaName) (stampsText c.stamps)).1 =
      .ok ()) : c.persist.Saved := by
  have hmax : ∀ e ∈ c.stamps, e.2 ≤ maxStamp := fun e he => Nat.le_trans (h.past e he) hclock
  have htext := (LawfulStore.set_ok (storeKey c.keyPrefix metaName) hset).trans (if_pos rfl)
  rw [Saved, storedStamps, persist, htext]
  exact congrArg Except.toOption (stampsDecoder_stampsText h.sorted hmax)

/-- Having no stamps is saved by removing those that were written. -/
theorem saved_clear {c : CodeCache σ}
    (hremove : (KeyValueStore.remove c.emptied.store (storeKey c.emptied.keyPrefix metaName)).1 =
      .ok ()) : c.clear.Saved := by
  have hgone : content c.clear.store (storeKey c.clear.keyPrefix metaName) = none :=
    (LawfulStore.remove_ok _ hremove).trans (if_pos rfl)
  rw [Saved, storedStamps, hgone]
  rfl

end ScriptSandbox.CodeCache
