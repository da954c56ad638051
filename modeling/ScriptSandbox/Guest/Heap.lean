/-!
# Heap meter

The meter counts the bytes that are allocated. Arming it sets a budget above what is in use, and a
hard limit above the budget. That the budget was exceeded is noticed when the guest is polled, and
remembered until the meter is cleared or armed again. Close to the hard limit the heap counts as
exhausted without a poll. Sums of limits saturate at the largest size; the count of the bytes in use
wraps around there.

An allocator reports every byte to a meter. What is beneath it, which gives the blocks and tells how
large they are, is a parameter; `Blocks` is such an allocator, which numbers the blocks.
-/

namespace ScriptSandbox

def maxSize : Nat := Nat.pow 2 64 - 1

/-- A sum that stops at the largest size. -/
def saturatingAdd (a b : Nat) : Nat := min (a + b) maxSize

/-- A counter of sizes starts again from zero behind the largest size. -/
def wrapped (n : Nat) : Nat := n % (maxSize + 1)

/-- The distance from the budget to the hard limit. -/
def backstopHeadroom : Nat := 33554432

/-- So close to the hard limit the heap counts as exhausted. -/
def exhaustionSlack : Nat := 65536

/-- A view of one heap. -/
structure HeapMeter where
  used : Nat := 0
  /-- The bytes that may be in use; zero before the meter is armed. -/
  budget : Nat := 0
  hardLimit : Nat := 0
  tripped : Bool := false
  deriving DecidableEq, Repr, Inhabited

namespace HeapMeter

/-- Allows `bytes` on top of what is in use. -/
def arm (m : HeapMeter) (bytes : Nat) : HeapMeter :=
  let budget := saturatingAdd m.used bytes
  { m with budget, hardLimit := saturatingAdd budget backstopHeadroom, tripped := false }

/-- Polls the meter: whether the budget is exceeded, which is remembered. -/
def overBudget (m : HeapMeter) : Bool × HeapMeter :=
  if m.budget == 0 || m.used ≤ m.budget then (false, m) else (true, { m with tripped := true })

/-- Whether the heap was exhausted since the meter was armed or cleared. -/
def exhausted (m : HeapMeter) : Bool :=
  m.tripped || (m.hardLimit != 0 && saturatingAdd m.used exhaustionSlack ≥ m.hardLimit)

/-- Forgets that the budget was exceeded. -/
def clear (m : HeapMeter) : HeapMeter := { m with tripped := false }

def grow (m : HeapMeter) (bytes : Nat) : HeapMeter := { m with used := wrapped (m.used + bytes) }

/-- Fewer bytes are in use. -/
def shrink (m : HeapMeter) (bytes : Nat) : HeapMeter :=
  { m with used := wrapped (m.used + (maxSize + 1 - wrapped bytes)) }

end HeapMeter

/-! ## Allocation -/

/-- An allocator by what it does: blocks have addresses, and a request may be refused. -/
structure BlockAllocator (α : Type) where
  alloc : α → Nat → Option Nat × α
  realloc : α → Nat → Nat → Option Nat × α
  dealloc : α → Nat → α
  /-- How many bytes the block at an address can hold. -/
  usableSize : α → Nat → Nat

/-- The state of an allocator and the meter that every byte is reported to. -/
structure Metered (α : Type) where
  meter : HeapMeter := {}
  heap : α
  deriving DecidableEq, Repr

namespace Metered

variable {α : Type} (A : BlockAllocator α)

def alloc (m : Metered α) (size : Nat) : Option Nat × Metered α :=
  match A.alloc m.heap size with
  | (none, heap) => (none, { m with heap })
  | (some address, heap) =>
    (some address, { meter := m.meter.grow (A.usableSize heap address), heap })

/-- Frees a block. -/
def dealloc (m : Metered α) (address : Nat) : Metered α :=
  { meter := m.meter.shrink (A.usableSize m.heap address), heap := A.dealloc m.heap address }

/-- Changes the size of a block, which may move it. Where that is refused, the block stays. -/
def realloc (m : Metered α) (address size : Nat) : Option Nat × Metered α :=
  let old := A.usableSize m.heap address
  match A.realloc m.heap address size with
  | (none, heap) => (none, { m with heap })
  | (some moved, heap) =>
    (some moved, { meter := (m.meter.shrink old).grow (A.usableSize heap moved), heap })

end Metered

/-! ## Blocks by number -/

/-- The bytes that a block of a requested size takes. -/
def usableSize (n : Nat) : Nat := (n + 7) / 8 * 8

def liveBytes : List (Option Nat) → Nat
  | [] => 0
  | size :: sizes => size.getD 0 + liveBytes sizes

theorem liveBytes_free_le (sizes : List (Option Nat)) (i : Nat) :
    liveBytes (sizes.set i none) ≤ liveBytes sizes := by
  induction sizes generalizing i with
  | nil => exact Nat.le_refl _
  | cons size sizes ih =>
      cases i with
      | zero => simp [liveBytes]
      | succ i => simpa [liveBytes] using ih i

/-- The size of each block that was ever allocated; a freed one has none. Together the live ones are
no larger than the largest size. -/
structure Blocks where
  sizes : List (Option Nat) := []
  fits : liveBytes sizes ≤ maxSize := by decide
  deriving DecidableEq, Repr

namespace Blocks

def size? (s : Blocks) (i : Nat) : Option Nat := (s.sizes[i]?).join

/-- Blocks as an allocator: the address of a block is the count of blocks before it. -/
def allocator : BlockAllocator Blocks where
  alloc s n :=
    if fits : liveBytes (s.sizes ++ [some (usableSize n)]) ≤ maxSize then
      (some s.sizes.length, ⟨_, fits⟩)
    else (none, s)
  realloc s i n :=
    if fits : liveBytes (s.sizes.set i (some (usableSize n))) ≤ maxSize then (some i, ⟨_, fits⟩)
    else (none, s)
  dealloc s i := ⟨s.sizes.set i none, Nat.le_trans (liveBytes_free_le s.sizes i) s.fits⟩
  usableSize s i := (s.size? i).getD 0

end Blocks

/-- The live blocks of an allocator that reports to a meter, by number. -/
abbrev MeteredHeap : Type := Metered Blocks

namespace MeteredHeap

instance : EmptyCollection MeteredHeap := ⟨{ heap := {} }⟩

def alloc (h : MeteredHeap) (n : Nat) : MeteredHeap := (Metered.alloc Blocks.allocator h n).2

/-- Changes the size of a live block. -/
def realloc (h : MeteredHeap) (i n : Nat) : MeteredHeap :=
  if (h.heap.size? i).isSome then (Metered.realloc Blocks.allocator h i n).2 else h

/-- Frees a live block. -/
def free (h : MeteredHeap) (i : Nat) : MeteredHeap :=
  if (h.heap.size? i).isSome then Metered.dealloc Blocks.allocator h i else h

end MeteredHeap
end ScriptSandbox
