import ScriptSandbox.Proofs.Guest.Metering

/-!
# What arming a heap means

A meter is armed, polled and cleared between the calls that allocate. Only arming sets its limits
(`limits_call`), and only a poll that finds the budget exceeded sets its mark, which lasts until the
meter is cleared or armed again (`tripped_call`). Both are said for one call and then for a sequence,
the second by looking at the last call, since what counts is what came behind the last `clear`. What a
meter answers is thereby told from the calls alone (`budget_of_latest_arm`), for any allocator.

A budget of zero stands for a meter that was never armed. So a heap that is armed with nothing while
nothing is in use has no budget at all (`unbounded_if_armed_with_nothing`).
-/

namespace ScriptSandbox

variable {α : Type}

namespace HeapMeter

/-- What arming sets. -/
def limits (m : HeapMeter) : Nat × Nat := (m.budget, m.hardLimit)

/-- What a meter holds besides the count of the bytes in use. -/
def marks (m : HeapMeter) : (Nat × Nat) × Bool := (m.limits, m.tripped)

theorem overBudget_iff (m : HeapMeter) :
    m.overBudget.1 = true ↔ m.budget ≠ 0 ∧ m.budget < m.used := by
  unfold overBudget
  split
  · next hquiet =>
      simp only [Bool.or_eq_true, beq_iff_eq, decide_eq_true_eq] at hquiet
      exact iff_of_false Bool.false_ne_true (by omega)
  · next hover =>
      simp only [Bool.or_eq_true, beq_iff_eq, decide_eq_true_eq, not_or] at hover
      exact iff_of_true rfl (by omega)

theorem exhausted_iff (m : HeapMeter) :
    m.exhausted = true ↔
      m.tripped = true ∨ m.hardLimit ≠ 0 ∧ m.hardLimit ≤ saturatingAdd m.used exhaustionSlack := by
  simp [exhausted]

theorem limits_overBudget (m : HeapMeter) : m.overBudget.2.limits = m.limits := by
  unfold overBudget
  split <;> rfl

theorem tripped_overBudget (m : HeapMeter) :
    m.overBudget.2.tripped = true ↔ m.tripped = true ∨ m.overBudget.1 = true := by
  unfold overBudget
  split <;> simp

theorem saturatingAdd_pos {a b : Nat} : 0 < saturatingAdd a b ↔ 0 < a + b := by
  have hmax : 0 < maxSize := by decide
  unfold saturatingAdd
  omega

end HeapMeter

namespace Metered

variable {A : BlockAllocator α} {m : Metered α} {c : HeapCall} {calls : List HeapCall}

/-! ## One call -/

/-- What an allocation changes of a meter is the count of the bytes in use. -/
theorem marks_alloc (m : Metered α) (size : Nat) :
    (m.alloc A size).2.meter.marks = m.meter.marks := by
  cases hgrant : (A.alloc m.heap size).1 with
  | none => rw [alloc_refused hgrant]
  | some p => rw [alloc_granted hgrant]; rfl

theorem marks_realloc (m : Metered α) (p size : Nat) :
    (m.realloc A p size).2.meter.marks = m.meter.marks := by
  cases hgrant : (A.realloc m.heap p size).1 with
  | none => rw [realloc_refused hgrant]
  | some q => rw [realloc_granted hgrant]; rfl

theorem limits_call (hc : ∀ bytes, c ≠ .arm bytes) :
    (m.call A c).meter.limits = m.meter.limits := by
  cases c with
  | alloc size => exact congrArg Prod.fst (marks_alloc m size)
  | realloc address size => exact congrArg Prod.fst (marks_realloc m address size)
  | dealloc address => rfl
  | arm bytes => exact absurd rfl (hc bytes)
  | poll => exact HeapMeter.limits_overBudget m.meter
  | clear => rfl

/-- A poll that finds the budget exceeded leaves a mark, which stays until the meter is cleared. -/
theorem tripped_call (hc : ∀ bytes, c ≠ .arm bytes) :
    (m.call A c).meter.tripped = true ↔
      c ≠ .clear ∧ m.meter.tripped = true ∨ c = .poll ∧ m.meter.overBudget.1 = true := by
  cases c with
  | alloc size =>
      have htripped : (m.call A (.alloc size)).meter.tripped = m.meter.tripped :=
        congrArg Prod.snd (marks_alloc m size)
      simp [htripped]
  | realloc address size =>
      have htripped : (m.call A (.realloc address size)).meter.tripped = m.meter.tripped :=
        congrArg Prod.snd (marks_realloc m address size)
      simp [htripped]
  | dealloc address => simp [call, dealloc, HeapMeter.shrink]
  | arm bytes => exact absurd rfl (hc bytes)
  | poll => simp [call, HeapMeter.tripped_overBudget]
  | clear => simp [call, HeapMeter.clear]

/-! ## Sequences of calls -/

theorem run_concat (A : BlockAllocator α) (m : Metered α) (calls : List HeapCall) (c : HeapCall) :
    m.run A (calls ++ [c]) = (m.run A calls).call A c := by
  unfold run
  rw [List.foldl_append, List.foldl_cons, List.foldl_nil]

theorem limits_run (hcalls : ∀ bytes, .arm bytes ∉ calls) :
    (m.run A calls).meter.limits = m.meter.limits := by
  induction calls using List.reverseRecOn with
  | nil => rfl
  | append_singleton calls c ih =>
      simp only [List.mem_append, List.mem_singleton, not_or] at hcalls
      rw [run_concat, limits_call fun bytes h => (hcalls bytes).2 h.symm]
      exact ih fun bytes => (hcalls bytes).1

/-- Whether some poll finds the budget exceeded and the meter is not cleared behind it. -/
def Tripped (A : BlockAllocator α) (m : Metered α) (calls : List HeapCall) : Prop :=
  ∃ sooner later, calls = sooner ++ .poll :: later ∧ .clear ∉ later ∧
    (m.run A sooner).meter.overBudget.1 = true

theorem not_tripped_nil : ¬ m.Tripped A [] := by
  rintro ⟨sooner, later, hnil, -⟩
  exact List.append_ne_nil_of_right_ne_nil _ (List.cons_ne_nil _ _) hnil.symm

/-- The poll in question is the last call, or one before it. -/
theorem tripped_concat :
    m.Tripped A (calls ++ [c]) ↔
      c ≠ .clear ∧ m.Tripped A calls ∨
        c = .poll ∧ (m.run A calls).meter.overBudget.1 = true := by
  constructor
  · rintro ⟨sooner, later, hsplit, hlater, hover⟩
    rcases List.eq_nil_or_concat' later with rfl | ⟨later, last, rfl⟩
    · obtain ⟨rfl, hlast⟩ := List.append_inj' hsplit rfl
      exact .inr ⟨List.singleton_inj.mp hlast, hover⟩
    · rw [← List.cons_append, ← List.append_assoc] at hsplit
      obtain ⟨rfl, hlast⟩ := List.append_inj' hsplit rfl
      obtain rfl := List.singleton_inj.mp hlast
      simp only [List.mem_append, List.mem_singleton, not_or] at hlater
      exact .inl ⟨fun hclear => hlater.2 hclear.symm, sooner, later, rfl, hlater.1, hover⟩
  · rintro (⟨hclear, sooner, later, rfl, hlater, hover⟩ | ⟨rfl, hover⟩)
    · refine ⟨sooner, later ++ [c], by simp, ?_, hover⟩
      simp only [List.mem_append, List.mem_singleton, not_or]
      exact ⟨hlater, fun h => hclear h.symm⟩
    · exact ⟨calls, [], rfl, List.not_mem_nil, hover⟩

theorem tripped_run (hunmarked : m.meter.tripped = false) (hcalls : ∀ bytes, .arm bytes ∉ calls) :
    (m.run A calls).meter.tripped = true ↔ m.Tripped A calls := by
  induction calls using List.reverseRecOn with
  | nil =>
      refine iff_of_false ?_ not_tripped_nil
      show ¬ m.meter.tripped = true
      rw [hunmarked]
      exact Bool.false_ne_true
  | append_singleton calls c ih =>
      simp only [List.mem_append, List.mem_singleton, not_or] at hcalls
      rw [run_concat, tripped_call fun bytes h => (hcalls bytes).2 h.symm, tripped_concat,
        ih fun bytes => (hcalls bytes).1]

/-- A meter that was never armed has no limits, and no poll marks it. -/
theorem unarmed (A : BlockAllocator α) (s : α) (hcalls : ∀ bytes, .arm bytes ∉ calls) :
    (run A { heap := s } calls).meter.overBudget.1 = false ∧
      (run A { heap := s } calls).meter.exhausted = false := by
  have hlimits (sooner : List HeapCall) (h : ∀ bytes, .arm bytes ∉ sooner) :
      (run A { heap := s } sooner).meter.budget = 0 ∧
        (run A { heap := s } sooner).meter.hardLimit = 0 :=
    Prod.mk.inj (limits_run (A := A) (m := { heap := s }) h)
  have hnever (sooner : List HeapCall) (h : ∀ bytes, .arm bytes ∉ sooner) :
      ¬ (run A { heap := s } sooner).meter.overBudget.1 = true := fun hover =>
    ((HeapMeter.overBudget_iff _).mp hover).1 (hlimits sooner h).1
  refine ⟨Bool.eq_false_iff.mpr (hnever calls hcalls), Bool.eq_false_iff.mpr fun hout => ?_⟩
  rcases (HeapMeter.exhausted_iff _).mp hout with hmark | ⟨hlimit, -⟩
  · obtain ⟨sooner, later, rfl, -, hover⟩ := (tripped_run rfl hcalls).mp hmark
    exact hnever sooner (fun bytes h => hcalls bytes (List.mem_append_left _ h)) hover
  · exact hlimit (hlimits calls hcalls).2

/-! ## The latest arming -/

/-- What a meter answers, from the calls alone. Behind the latest arming a poll tells whether the bytes
in use exceed those that were in use then and those that were allowed, saturated, unless both are
zero; and the heap counts as exhausted if a poll has told so since and the meter was not cleared, or
if the bytes in use come close to the hard limit. A meter that was never armed tells neither. -/
theorem budget_of_latest_arm (A : BlockAllocator α) (s : α) (bytes : Nat)
    {before after : List HeapCall} (hafter : ∀ n, .arm n ∉ after) :
    let earlier := run A { heap := s } before
    let armed := earlier.call A (.arm bytes)
    let m := armed.run A after
    let budget := min (earlier.meter.used + bytes) maxSize
    (m.meter.overBudget.1 = true ↔
        0 < earlier.meter.used + bytes ∧ budget < m.meter.used) ∧
      (m.meter.exhausted = true ↔
        armed.Tripped A after ∨
          min (budget + backstopHeadroom) maxSize ≤ min (m.meter.used + exhaustionSlack) maxSize) ∧
      ((∀ n, .arm n ∉ before) →
        earlier.meter.overBudget.1 = false ∧ earlier.meter.exhausted = false) := by
  intro earlier armed m budget
  have hlimits : m.meter.budget = budget ∧
      m.meter.hardLimit = saturatingAdd budget backstopHeadroom :=
    Prod.mk.inj (limits_run (A := A) (m := armed) hafter)
  have hbudget : m.meter.budget ≠ 0 ↔ 0 < earlier.meter.used + bytes := by
    rw [hlimits.1, ← HeapMeter.saturatingAdd_pos, Nat.pos_iff_ne_zero]
    rfl
  have hhard : m.meter.hardLimit ≠ 0 := by
    rw [hlimits.2, ← Nat.pos_iff_ne_zero, HeapMeter.saturatingAdd_pos]
    exact Nat.lt_of_lt_of_le (by decide) (Nat.le_add_left backstopHeadroom budget)
  refine ⟨?_, ?_, unarmed A s⟩
  · rw [HeapMeter.overBudget_iff, hbudget, hlimits.1]
  · rw [HeapMeter.exhausted_iff, tripped_run rfl hafter, and_iff_right hhard, hlimits.2]
    rfl

/-- A poll has found the budget exceeded, and the block that was too large is free again. -/
theorem budget_of_latest_arm_marked :
    let calls : List HeapCall := [.alloc 2000, .poll, .dealloc 1]
    let armed := (run Blocks.allocator { heap := {} } [.arm 5, .alloc 100]).call
      Blocks.allocator (.arm 1000)
    (∀ n, .arm n ∉ calls) ∧ (armed.run Blocks.allocator calls).meter.overBudget.1 = false ∧
      (armed.run Blocks.allocator calls).meter.exhausted = true := by
  intro calls armed
  have hcalls : ∀ n, .arm n ∉ calls := by simp [calls]
  obtain ⟨hover, hout, -⟩ :=
    @budget_of_latest_arm _ Blocks.allocator {} 1000 [.arm 5, .alloc 100] calls hcalls
  refine ⟨hcalls, Bool.eq_false_iff.mpr fun htrue => absurd (hover.mp htrue).2 (by decide), ?_⟩
  exact hout.mpr (.inl ⟨[.alloc 2000], [.dealloc 1], rfl, by simp, by decide⟩)

/-- Nothing is in use and nothing is allowed, and yet there is no budget to exceed. -/
theorem unbounded_if_armed_with_nothing :
    let earlier : MeteredHeap := run Blocks.allocator { heap := {} } []
    let m := run Blocks.allocator (earlier.call Blocks.allocator (.arm 0)) [.alloc 8]
    min (earlier.meter.used + 0) maxSize < m.meter.used ∧ m.meter.overBudget.1 = false := by
  decide

end Metered

end ScriptSandbox
