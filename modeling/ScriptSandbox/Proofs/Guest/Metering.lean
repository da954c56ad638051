import Mathlib.Algebra.BigOperators.Group.Finset.Basic
import ScriptSandbox.Guest.Heap

/-!
# Metering is exact

The meter is told of every block that is given and taken, and its counter wraps around at the largest
size. `BlockAllocator.Lawful` is the contract of the allocator beneath: which blocks are live after
each request, that a live block keeps the size it reports, and that the live blocks lie side by side
in one address space. Under that contract a call on live blocks never takes more from the counter
than is in it, and never adds more than fits. So the counter is the sum of the sizes of the live
blocks, after any calls, whichever of the requests are refused (`used_eq_sum`).
-/

namespace ScriptSandbox

variable {α : Type}

/-! ## A counter that wraps around -/

theorem wrapped_of_le {n : Nat} (h : n ≤ maxSize) : wrapped n = n :=
  Nat.mod_eq_of_lt (Nat.lt_succ_of_le h)

namespace HeapMeter

variable {m : HeapMeter} {bytes : Nat}

theorem used_grow (h : m.used + bytes ≤ maxSize) : (m.grow bytes).used = m.used + bytes :=
  wrapped_of_le h

theorem used_shrink (hbytes : bytes ≤ m.used) (hused : m.used ≤ maxSize) :
    (m.shrink bytes).used = m.used - bytes := by
  unfold shrink
  have hwrapped : wrapped bytes = bytes := wrapped_of_le (Nat.le_trans hbytes hused)
  have hround : m.used + (maxSize + 1 - bytes) = m.used - bytes + (maxSize + 1) := by omega
  show wrapped (m.used + (maxSize + 1 - wrapped bytes)) = m.used - bytes
  rw [hwrapped, hround, wrapped, Nat.add_mod_right]
  exact wrapped_of_le (by omega)

end HeapMeter

/-! ## The contract of an allocator -/

namespace BlockAllocator

def inUse (A : BlockAllocator α) (live : α → Finset Nat) (s : α) : Nat :=
  ∑ p ∈ live s, A.usableSize s p

/-- What an allocator promises to whoever frees and changes live blocks only; `live` are the addresses
of the live blocks. -/
structure Lawful (A : BlockAllocator α) (live : α → Finset Nat) : Prop where
  alloc_refused {s : α} {size : Nat} : (A.alloc s size).1 = none → live (A.alloc s size).2 = live s
  alloc_granted {s : α} {size p : Nat} : (A.alloc s size).1 = some p →
    p ∉ live s ∧ live (A.alloc s size).2 = insert p (live s)
  alloc_keeps {s : α} {size q : Nat} : q ∈ live s →
    A.usableSize (A.alloc s size).2 q = A.usableSize s q
  dealloc_live {s : α} {p : Nat} : p ∈ live s → live (A.dealloc s p) = (live s).erase p
  dealloc_keeps {s : α} {p q : Nat} : p ∈ live s → q ∈ (live s).erase p →
    A.usableSize (A.dealloc s p) q = A.usableSize s q
  /-- A block whose change is refused stays as it is. -/
  realloc_refused {s : α} {p size : Nat} : p ∈ live s → (A.realloc s p size).1 = none →
    live (A.realloc s p size).2 = live s ∧
      A.usableSize (A.realloc s p size).2 p = A.usableSize s p
  realloc_granted {s : α} {p size q : Nat} : p ∈ live s → (A.realloc s p size).1 = some q →
    q ∉ (live s).erase p ∧ live (A.realloc s p size).2 = insert q ((live s).erase p)
  realloc_keeps {s : α} {p size q : Nat} : p ∈ live s → q ∈ (live s).erase p →
    A.usableSize (A.realloc s p size).2 q = A.usableSize s q
  /-- The live blocks do not overlap. -/
  fits (s : α) : A.inUse live s ≤ maxSize

variable {A : BlockAllocator α} {live : α → Finset Nat} {s : α} {p q size : Nat}

theorem inUse_erase (A : BlockAllocator α) (hp : p ∈ live s) :
    A.usableSize s p + ∑ q ∈ (live s).erase p, A.usableSize s q = A.inUse live s :=
  Finset.add_sum_erase (live s) (A.usableSize s) hp

theorem usableSize_le_inUse (A : BlockAllocator α) (hp : p ∈ live s) :
    A.usableSize s p ≤ A.inUse live s := by
  have hsum := inUse_erase A hp
  omega

namespace Lawful

theorem inUse_alloc_refused (hA : A.Lawful live) (h : (A.alloc s size).1 = none) :
    A.inUse live (A.alloc s size).2 = A.inUse live s := by
  unfold inUse
  rw [hA.alloc_refused h]
  exact Finset.sum_congr rfl fun q hq => hA.alloc_keeps hq

theorem inUse_alloc_granted (hA : A.Lawful live) (h : (A.alloc s size).1 = some p) :
    A.inUse live (A.alloc s size).2 =
      A.inUse live s + A.usableSize (A.alloc s size).2 p := by
  obtain ⟨hfresh, hlive⟩ := hA.alloc_granted h
  unfold inUse
  rw [hlive, Finset.sum_insert hfresh, Nat.add_comm]
  congr 1
  exact Finset.sum_congr rfl fun q hq => hA.alloc_keeps hq

theorem inUse_dealloc (hA : A.Lawful live) (hp : p ∈ live s) :
    A.usableSize s p + A.inUse live (A.dealloc s p) = A.inUse live s := by
  rw [← inUse_erase A hp]
  congr 1
  unfold inUse
  rw [hA.dealloc_live hp]
  exact Finset.sum_congr rfl fun q hq => hA.dealloc_keeps hp hq

theorem inUse_realloc_refused (hA : A.Lawful live) (hp : p ∈ live s)
    (h : (A.realloc s p size).1 = none) :
    A.inUse live (A.realloc s p size).2 = A.inUse live s := by
  obtain ⟨hlive, hself⟩ := hA.realloc_refused hp h
  unfold inUse
  rw [hlive]
  refine Finset.sum_congr rfl fun q hq => ?_
  by_cases hqp : q = p
  · rw [hqp, hself]
  · exact hA.realloc_keeps hp (Finset.mem_erase.mpr ⟨hqp, hq⟩)

/-- A block that is changed leaves with its old size and comes back with its new one, wherever it is
then. -/
theorem inUse_realloc_granted (hA : A.Lawful live) (hp : p ∈ live s)
    (h : (A.realloc s p size).1 = some q) :
    A.usableSize s p + A.inUse live (A.realloc s p size).2 =
      A.inUse live s + A.usableSize (A.realloc s p size).2 q := by
  obtain ⟨hfresh, hlive⟩ := hA.realloc_granted hp h
  have hothers : ∑ r ∈ (live s).erase p, A.usableSize (A.realloc s p size).2 r =
      ∑ r ∈ (live s).erase p, A.usableSize s r :=
    Finset.sum_congr rfl fun r hr => hA.realloc_keeps hp hr
  have hnew : A.inUse live (A.realloc s p size).2 =
      A.usableSize (A.realloc s p size).2 q + ∑ r ∈ (live s).erase p, A.usableSize s r := by
    rw [← hothers, inUse, hlive, Finset.sum_insert hfresh]
  have hold := inUse_erase A hp
  omega

end Lawful

end BlockAllocator

/-! ## Blocks by number -/

namespace Blocks

def live (s : Blocks) : Finset Nat := {i ∈ Finset.range s.sizes.length | (s.size? i).isSome}

variable {s : Blocks} {i j n : Nat}

theorem mem_live : i ∈ s.live ↔ (s.size? i).isSome := by
  unfold live
  rw [Finset.mem_filter, Finset.mem_range, and_iff_right_iff_imp, size?]
  intro hsome
  by_contra hge
  rw [List.getElem?_eq_none (Nat.le_of_not_lt hge)] at hsome
  cases hsome

theorem lt_of_mem_live (h : i ∈ s.live) : i < s.sizes.length :=
  Finset.mem_range.mp (Finset.mem_filter.mp h).1

theorem size?_append {size : Nat} (h : liveBytes (s.sizes ++ [some size]) ≤ maxSize) :
    size? ⟨s.sizes ++ [some size], h⟩ j = if j = s.sizes.length then some size else s.size? j := by
  unfold size?
  rcases Nat.lt_trichotomy j s.sizes.length with hlt | rfl | hgt
  · rw [List.getElem?_append_left hlt, if_neg (Nat.ne_of_lt hlt)]
  · simp
  · rw [if_neg (Nat.ne_of_gt hgt), List.getElem?_eq_none (Nat.le_of_lt hgt),
      List.getElem?_eq_none (by simp; omega)]

theorem size?_set {size : Option Nat} (hi : i ∈ s.live)
    (h : liveBytes (s.sizes.set i size) ≤ maxSize) :
    size? ⟨s.sizes.set i size, h⟩ j = if j = i then size else s.size? j := by
  unfold size?
  have hlt := lt_of_mem_live hi
  by_cases hij : j = i
  · subst hij
    simp [hlt]
  · rw [if_neg hij, List.getElem?_set_ne (Ne.symm hij)]

theorem sum_range_sizes (sizes : List (Option Nat)) :
    ∑ i ∈ Finset.range sizes.length, ((sizes[i]?).join.getD 0) = liveBytes sizes := by
  induction sizes with
  | nil => rfl
  | cons size sizes ih =>
      rw [List.length_cons, Finset.sum_range_succ']
      simp only [List.getElem?_cons_succ, ih]
      simp [liveBytes, Nat.add_comm]

/-- What is live by number are the bytes that the blocks keep within bounds. -/
theorem inUse_live (s : Blocks) : allocator.inUse live s = liveBytes s.sizes := by
  rw [← sum_range_sizes]
  refine Finset.sum_filter_of_ne fun i _ hne => ?_
  by_contra hdead
  refine hne ?_
  rw [Option.not_isSome_iff_eq_none] at hdead
  show (s.size? i).getD 0 = 0
  rw [hdead, Option.getD_none]

theorem alloc_cases (s : Blocks) (n : Nat) :
    allocator.alloc s n = (none, s) ∨
      ∃ h, allocator.alloc s n = (some s.sizes.length, ⟨s.sizes ++ [some (usableSize n)], h⟩) := by
  by_cases h : liveBytes (s.sizes ++ [some (usableSize n)]) ≤ maxSize
  · exact .inr ⟨h, dif_pos h⟩
  · exact .inl (dif_neg h)

theorem realloc_cases (s : Blocks) (i n : Nat) :
    allocator.realloc s i n = (none, s) ∨
      ∃ h, allocator.realloc s i n = (some i, ⟨s.sizes.set i (some (usableSize n)), h⟩) := by
  by_cases h : liveBytes (s.sizes.set i (some (usableSize n))) ≤ maxSize
  · exact .inr ⟨h, dif_pos h⟩
  · exact .inl (dif_neg h)

theorem lawful : allocator.Lawful live where
  alloc_refused {s n} hnone := by
    rcases alloc_cases s n with hsame | ⟨h, hnew⟩
    · rw [hsame]
    · rw [hnew] at hnone
      cases hnone
  alloc_granted {s n p} hsome := by
    rcases alloc_cases s n with hsame | ⟨h, hnew⟩
    · rw [hsame] at hsome
      cases hsome
    · rw [hnew] at hsome ⊢
      obtain rfl : s.sizes.length = p := Option.some.inj hsome
      refine ⟨fun hmem => Nat.lt_irrefl _ (lt_of_mem_live hmem), Finset.ext fun j => ?_⟩
      rw [Finset.mem_insert, mem_live, mem_live, size?_append]
      split <;> simp [*]
  alloc_keeps {s n q} hq := by
    rcases alloc_cases s n with hsame | ⟨h, hnew⟩
    · rw [hsame]
    · rw [hnew]
      show (size? _ q).getD 0 = (s.size? q).getD 0
      rw [size?_append, if_neg (Nat.ne_of_lt (lt_of_mem_live hq))]
  dealloc_live {s i} hi := by
    refine Finset.ext fun j => ?_
    rw [Finset.mem_erase, mem_live, mem_live]
    show (size? ⟨s.sizes.set i none, _⟩ j).isSome ↔ _
    rw [size?_set hi]
    split <;> simp [*]
  dealloc_keeps {s i j} hi hj := by
    show (size? ⟨s.sizes.set i none, _⟩ j).getD 0 = (s.size? j).getD 0
    rw [size?_set hi, if_neg (Finset.ne_of_mem_erase hj)]
  realloc_refused {s i n} hi hnone := by
    rcases realloc_cases s i n with hsame | ⟨h, hnew⟩
    · rw [hsame]
      exact ⟨rfl, rfl⟩
    · rw [hnew] at hnone
      cases hnone
  realloc_granted {s i n q} hi hsome := by
    rcases realloc_cases s i n with hsame | ⟨h, hnew⟩
    · rw [hsame] at hsome
      cases hsome
    · rw [hnew] at hsome ⊢
      obtain rfl : i = q := Option.some.inj hsome
      refine ⟨Finset.notMem_erase i s.live, Finset.ext fun j => ?_⟩
      rw [Finset.insert_erase hi, mem_live, mem_live, size?_set hi]
      split
      · next hji => exact iff_of_true rfl (hji ▸ mem_live.mp hi)
      · rfl
  realloc_keeps {s i n j} hi hj := by
    rcases realloc_cases s i n with hsame | ⟨h, hnew⟩
    · rw [hsame]
    · rw [hnew]
      show (size? _ j).getD 0 = (s.size? j).getD 0
      rw [size?_set hi, if_neg (Finset.ne_of_mem_erase hj)]
  fits s := by
    rw [inUse_live]
    exact s.fits

end Blocks

/-! ## Calls -/

/-- What may be asked of a metered heap; the calls that only read are left out. -/
inductive HeapCall where
  | alloc (size : Nat)
  | realloc (address size : Nat)
  | dealloc (address : Nat)
  | arm (bytes : Nat)
  | poll
  | clear
  deriving DecidableEq, Repr

/-- Whether a call frees or changes live blocks only. -/
def HeapCall.OnLive (live : α → Finset Nat) (s : α) : HeapCall → Prop
  | .realloc address _ | .dealloc address => address ∈ live s
  | .alloc _ | .arm _ | .poll | .clear => True

instance (live : α → Finset Nat) (s : α) : (c : HeapCall) → Decidable (c.OnLive live s)
  | .realloc address _ | .dealloc address => inferInstanceAs (Decidable (address ∈ live s))
  | .alloc _ | .arm _ | .poll | .clear => .isTrue trivial

namespace Metered

def call (A : BlockAllocator α) (m : Metered α) : HeapCall → Metered α
  | .alloc size => (m.alloc A size).2
  | .realloc address size => (m.realloc A address size).2
  | .dealloc address => m.dealloc A address
  | .arm bytes => { m with meter := m.meter.arm bytes }
  | .poll => { m with meter := m.meter.overBudget.2 }
  | .clear => { m with meter := m.meter.clear }

def run (A : BlockAllocator α) (m : Metered α) (calls : List HeapCall) : Metered α :=
  calls.foldl (call A) m

/-- Whether each call of a sequence frees or changes a block that is live when it is made. -/
def OnLive (A : BlockAllocator α) (live : α → Finset Nat) (m : Metered α) : List HeapCall → Prop
  | [] => True
  | c :: calls => c.OnLive live m.heap ∧ (m.call A c).OnLive A live calls

instance decidableOnLive (A : BlockAllocator α) (live : α → Finset Nat) (m : Metered α) :
    (calls : List HeapCall) → Decidable (m.OnLive A live calls)
  | [] => .isTrue trivial
  | c :: calls =>
      have := decidableOnLive A live (m.call A c) calls
      inferInstanceAs (Decidable (c.OnLive live m.heap ∧ (m.call A c).OnLive A live calls))

/-- The meter tells the bytes of the live blocks. -/
def Exact (A : BlockAllocator α) (live : α → Finset Nat) (m : Metered α) : Prop :=
  m.meter.used = A.inUse live m.heap

variable {A : BlockAllocator α} {live : α → Finset Nat} {m : Metered α} {p q size : Nat}

theorem alloc_refused (h : (A.alloc m.heap size).1 = none) :
    m.alloc A size = (none, { m with heap := (A.alloc m.heap size).2 }) := by
  unfold alloc
  rcases hgrant : A.alloc m.heap size with ⟨_ | p, next⟩
  · rfl
  · rw [hgrant] at h
    cases h

theorem alloc_granted (h : (A.alloc m.heap size).1 = some p) :
    m.alloc A size = (some p,
      { meter := m.meter.grow (A.usableSize (A.alloc m.heap size).2 p)
        heap := (A.alloc m.heap size).2 }) := by
  unfold alloc
  rcases hgrant : A.alloc m.heap size with ⟨_ | q, next⟩
  · rw [hgrant] at h
    cases h
  · rw [hgrant] at h
    obtain rfl : q = p := Option.some.inj h
    rfl

theorem realloc_refused (h : (A.realloc m.heap p size).1 = none) :
    m.realloc A p size = (none, { m with heap := (A.realloc m.heap p size).2 }) := by
  unfold realloc
  rcases hgrant : A.realloc m.heap p size with ⟨_ | q, next⟩
  · rfl
  · rw [hgrant] at h
    cases h

theorem realloc_granted (h : (A.realloc m.heap p size).1 = some q) :
    m.realloc A p size = (some q,
      { meter := (m.meter.shrink (A.usableSize m.heap p)).grow
          (A.usableSize (A.realloc m.heap p size).2 q)
        heap := (A.realloc m.heap p size).2 }) := by
  unfold realloc
  rcases hgrant : A.realloc m.heap p size with ⟨_ | r, next⟩
  · rw [hgrant] at h
    cases h
  · rw [hgrant] at h
    obtain rfl : r = q := Option.some.inj h
    rfl

theorem used_overBudget (m : HeapMeter) : m.overBudget.2.used = m.used := by
  unfold HeapMeter.overBudget
  split <;> rfl

namespace Exact

theorem alloc (hA : A.Lawful live) (h : m.Exact A live) (size : Nat) :
    (m.alloc A size).2.Exact A live := by
  unfold Exact at *
  cases hgrant : (A.alloc m.heap size).1 with
  | none =>
      rw [alloc_refused hgrant]
      exact h.trans (hA.inUse_alloc_refused hgrant).symm
  | some p =>
      have hmore := hA.inUse_alloc_granted hgrant
      have hfits := hA.fits (A.alloc m.heap size).2
      rw [alloc_granted hgrant, HeapMeter.used_grow (by omega), h, hmore]

theorem dealloc (hA : A.Lawful live) (h : m.Exact A live) (hp : p ∈ live m.heap) :
    (m.dealloc A p).Exact A live := by
  have hless := hA.inUse_dealloc hp
  have hfits := hA.fits m.heap
  unfold Exact at *
  show (m.meter.shrink (A.usableSize m.heap p)).used = A.inUse live (A.dealloc m.heap p)
  rw [HeapMeter.used_shrink (by omega) (by omega)]
  omega

theorem realloc (hA : A.Lawful live) (h : m.Exact A live) (hp : p ∈ live m.heap) (size : Nat) :
    (m.realloc A p size).2.Exact A live := by
  unfold Exact at *
  cases hgrant : (A.realloc m.heap p size).1 with
  | none =>
      rw [realloc_refused hgrant]
      exact h.trans (hA.inUse_realloc_refused hp hgrant).symm
  | some q =>
      have hmoved := hA.inUse_realloc_granted hp hgrant
      have hold := A.usableSize_le_inUse hp
      have hroom := hA.fits m.heap
      have hfits := hA.fits (A.realloc m.heap p size).2
      -- The old size is taken before the new one is added, so that the counter stays in range.
      have hshrunk : (m.meter.shrink (A.usableSize m.heap p)).used =
          m.meter.used - A.usableSize m.heap p := HeapMeter.used_shrink (by omega) (by omega)
      rw [realloc_granted hgrant, HeapMeter.used_grow (by omega), hshrunk]
      show _ = A.inUse live (A.realloc m.heap p size).2
      omega

/-- No call on live blocks makes the meter wrong. -/
theorem call (hA : A.Lawful live) (h : m.Exact A live) {c : HeapCall}
    (hc : c.OnLive live m.heap) : (m.call A c).Exact A live := by
  cases c with
  | alloc size => exact h.alloc hA size
  | realloc address size => exact h.realloc hA hc size
  | dealloc address => exact h.dealloc hA hc
  | arm bytes => exact h
  | poll => exact (used_overBudget m.meter).trans h
  | clear => exact h

theorem run (hA : A.Lawful live) {calls : List HeapCall} (h : m.Exact A live)
    (hcalls : m.OnLive A live calls) : (m.run A calls).Exact A live := by
  induction calls generalizing m with
  | nil => exact h
  | cons c calls ih => exact ih (h.call hA hcalls.1) hcalls.2

end Exact

/-- After any calls on live blocks, of which any may have been refused, the meter tells the sum of the
sizes of the live blocks. What it is told of a live block never exceeds what it holds, so that freeing
the block takes just its size away, and nothing is left once no block is live. -/
theorem used_eq_sum (hA : A.Lawful live) {s : α} (hnone : live s = ∅) {calls : List HeapCall}
    (hcalls : OnLive A live { heap := s } calls) :
    let m := run A { heap := s } calls
    m.meter.used = ∑ p ∈ live m.heap, A.usableSize m.heap p ∧
      (∀ p ∈ live m.heap, A.usableSize m.heap p ≤ m.meter.used ∧
        (m.meter.shrink (A.usableSize m.heap p)).used = m.meter.used - A.usableSize m.heap p) ∧
      (live m.heap = ∅ → m.meter.used = 0) := by
  intro m
  have hstart : Exact A live { heap := s } := by
    unfold Exact BlockAllocator.inUse
    rw [hnone, Finset.sum_empty]
  have hexact : m.meter.used = A.inUse live m.heap := hstart.run hA hcalls
  refine ⟨hexact, fun p hp => ?_, fun hfreed => ?_⟩
  · have hle := A.usableSize_le_inUse hp
    have hfits := hA.fits m.heap
    exact ⟨by omega, HeapMeter.used_shrink (by omega) (by omega)⟩
  · rw [hexact, BlockAllocator.inUse, hfreed, Finset.sum_empty]

/-- Two blocks, of which one cannot grow without end and the other can grow a little, and a third
that is refused. -/
def crowding : List HeapCall :=
  [.alloc 100, .alloc 7, .realloc 0 maxSize, .realloc 1 30, .alloc maxSize]

theorem used_eq_sum_crowded :
    Blocks.live {} = ∅ ∧ OnLive Blocks.allocator Blocks.live { heap := {} } crowding ∧
      (run Blocks.allocator { heap := {} } crowding).meter.used = 136 ∧
      ((run Blocks.allocator { heap := {} } crowding).meter.shrink 104).used = 32 :=
  have hnone : Blocks.live {} = ∅ := rfl
  have hcalls : OnLive Blocks.allocator Blocks.live { heap := {} } crowding := by
    decide
  have hexact := used_eq_sum Blocks.lawful hnone hcalls
  have hused : (run Blocks.allocator { heap := {} } crowding).meter.used = 136 :=
    hexact.1.trans (by decide)
  ⟨hnone, hcalls, hused, (hexact.2.1 0 (by decide)).2.trans (by rw [hused]; decide)⟩

end Metered

end ScriptSandbox
