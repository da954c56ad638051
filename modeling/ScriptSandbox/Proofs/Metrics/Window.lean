import Mathlib
import ScriptSandbox.Metrics.Timer

/-!
# What a timer keeps and reports

The calls of a timer are listed with the latest first. They alone tell which durations were recorded
(`recorded`), and the window of the timer is the end of that list, as long as the capacity lets it be
(`window_after`): one call leaves a timer where its calls have brought it (`Stands.call`), whatever
the calls before were.

What a timer reports of its window is taken from the window alone. The shortest and the longest
duration are the bounds of it. The mean, which `mean?` gives in any numbers, is in exact ones the sum
over the length and lies between the two (`exactMean?_eq`, `shortest_le_mean`, `mean_le_longest`); in
doubles it may not, since both the division and the change to milliseconds are rounded.
`window_is_last_recorded` puts both parts together.
-/

namespace ScriptSandbox

namespace Duration

/-- The span in milliseconds, exactly. -/
def exactMillis (d : Duration) : ℚ := d.millisIn Nat.cast

theorem toNanos_ofNanos (n : Nat) : (ofNanos n).toNanos = n := by
  show n / 1000000000 * 1000000000 + n % 1000000000 = n
  omega

theorem exactMillis_eq (d : Duration) : d.exactMillis = d.toNanos / 1000000 := by
  unfold exactMillis millisIn toNanos
  push_cast
  ring

theorem exactMillis_le {a b : Duration} (h : a.toNanos ≤ b.toNanos) :
    a.exactMillis ≤ b.exactMillis := by
  rw [exactMillis_eq, exactMillis_eq]
  gcongr

theorem exactMillis_ofNanos (n : Nat) : (ofNanos n).exactMillis = n / 1000000 := by
  rw [exactMillis_eq, toNanos_ofNanos]

theorem sum_exactMillis (ds : List Duration) :
    (ds.map exactMillis).sum = (ds.map toNanos).sum / 1000000 := by
  induction ds with
  | nil => simp
  | cons d ds ih =>
      simp only [List.map_cons, List.sum_cons]
      rw [ih, exactMillis_eq, Nat.cast_add]
      ring

end Duration

namespace Timer

/-! ## Histories -/

/-- A call of a timer, with the reading of the clock at a begin or an end. -/
inductive Call where
  | record (d : Duration)
  | begin (reading : Duration)
  | finish (reading : Duration)
  deriving DecidableEq, Repr

def call (t : Timer) : Call → Timer
  | .record d => t.record d
  | .begin reading => t.begin reading
  | .finish reading => t.finish reading

/-- A timer of a capacity after some calls, the latest first. -/
def after (capacity : Nat) : List Call → Timer
  | [] => new capacity
  | c :: past => (after capacity past).call c

/-- The reading at the latest begin, if no end came after it. -/
def begunAt? : List Call → Option Duration
  | [] => none
  | .record _ :: past => begunAt? past
  | .begin reading :: _ => some reading
  | .finish _ :: _ => none

/-- The durations that some calls recorded, the latest call first and the oldest duration first. -/
def recorded : List Call → List Duration
  | [] => []
  | .record d :: past => recorded past ++ [d]
  | .begin _ :: past => recorded past
  | .finish reading :: past =>
    match begunAt? past with
    | some start => recorded past ++ [.ofNanos (reading.toNanos - start.toNanos)]
    | none => recorded past

/-- A begin came after the latest end. -/
def Begun (calls : List Call) : Prop :=
  ∃ later reading earlier, calls = later ++ .begin reading :: earlier ∧
    ∀ c ∈ later, ∀ r, c ≠ .finish r

/-- A begin at this reading came after the latest end, and no other begin after it. -/
def BegunAt (calls : List Call) (reading : Duration) : Prop :=
  ∃ later earlier, calls = later ++ .begin reading :: earlier ∧ ∀ c ∈ later, ∃ d, c = .record d

variable {calls : List Call} {reading : Duration} {t : Timer}

theorem begunAt_of_begunAt? (h : begunAt? calls = some reading) : BegunAt calls reading := by
  induction calls with
  | nil => cases h
  | cons c past ih =>
      cases c with
      | record d =>
          obtain ⟨later, earlier, hpast, hlater⟩ := ih h
          refine ⟨.record d :: later, earlier, by rw [hpast]; rfl, ?_⟩
          exact List.forall_mem_cons.mpr ⟨⟨d, rfl⟩, hlater⟩
      | begin r =>
          cases h
          exact ⟨[], past, rfl, List.forall_mem_nil _⟩
      | finish r => cases h

theorem not_begun_of_begunAt? (h : begunAt? calls = none) : ¬ Begun calls := by
  rintro ⟨later, reading, earlier, rfl, hlater⟩
  induction later with
  | nil => cases h
  | cons c later ih =>
      rw [List.forall_mem_cons] at hlater
      cases c with
      | record d => exact ih hlater.2 h
      | begin r => cases h
      | finish r => exact hlater.1 r rfl

theorem BegunAt.begun (h : BegunAt calls reading) : Begun calls := by
  obtain ⟨later, earlier, hcalls, hlater⟩ := h
  refine ⟨later, reading, earlier, hcalls, fun c hc r hfinish => ?_⟩
  obtain ⟨d, rfl⟩ := hlater c hc
  cases hfinish

/-- An end records one duration, the time since the latest begin, if there was a begin since the end
before it, and otherwise none. -/
theorem recorded_finish (calls : List Call) (reading : Duration) :
    (∃ start, BegunAt calls start ∧ recorded (.finish reading :: calls) =
        recorded calls ++ [.ofNanos (reading.toNanos - start.toNanos)]) ∨
      (¬ Begun calls ∧ recorded (.finish reading :: calls) = recorded calls) := by
  cases hbegun : begunAt? calls with
  | some start =>
      exact Or.inl ⟨start, begunAt_of_begunAt? hbegun, by rw [recorded, hbegun]⟩
  | none => exact Or.inr ⟨not_begun_of_begunAt? hbegun, by rw [recorded, hbegun]⟩

/-! ## The window -/

/-- A full window without its oldest duration, or one that is not full, has room for one more. -/
theorem rtake_room (ds : List Duration) (k : Nat) :
    (if (ds.rtake (k + 1)).length == k + 1 then (ds.rtake (k + 1)).tail else ds.rtake (k + 1)) =
      ds.rtake k := by
  simp only [List.rtake, List.length_drop, beq_iff_eq, List.tail_drop]
  -- Both sides drop from `ds`; a window that is not full is all of it.
  split
  · congr 1
    omega
  · congr 1
    omega

theorem record_window {ds : List Duration} {k : Nat} (hcapacity : t.capacity = k + 1)
    (hwindow : t.window = ds.rtake (k + 1)) (d : Duration) :
    (t.record d).window = (ds ++ [d]).rtake (k + 1) := by
  show (if t.window.length == t.capacity then t.window.tail else t.window) ++ [d] = _
  rw [hcapacity, hwindow, rtake_room, List.rtake_concat_succ]

/-- A timer stands where its calls have brought it: `k + 1` is its capacity. -/
structure Stands (k : Nat) (calls : List Call) (t : Timer) : Prop where
  capacity_eq : t.capacity = k + 1
  started_eq : t.started = begunAt? calls
  window_eq : t.window = (recorded calls).rtake (k + 1)

theorem Stands.call {k : Nat} (h : Stands k calls t) (c : Call) :
    Stands k (c :: calls) (t.call c) := by
  obtain ⟨hcapacity, hstarted, hwindow⟩ := h
  cases c with
  | record d => exact ⟨hcapacity, hstarted, record_window hcapacity hwindow d⟩
  | begin r => exact ⟨hcapacity, rfl, hwindow⟩
  | finish r =>
      cases hbegun : t.started with
      | none =>
          have hcall : t.call (.finish r) = t := by simp only [Timer.call, finish, hbegun]
          rw [hbegun] at hstarted
          rw [hcall]
          exact ⟨hcapacity, hbegun, by rw [recorded, ← hstarted, hwindow]⟩
      | some start =>
          have hcall : t.call (.finish r) =
              { t with started := none }.record (.ofNanos (r.toNanos - start.toNanos)) := by
            simp only [Timer.call, finish, hbegun]
          rw [hbegun] at hstarted
          rw [hcall]
          refine ⟨hcapacity, rfl, ?_⟩
          rw [recorded, ← hstarted]
          exact record_window (t := { t with started := none }) hcapacity hwindow _

theorem stands_after (capacity : Nat) (calls : List Call) :
    Stands (max capacity 1 - 1) calls (after capacity calls) := by
  induction calls with
  | nil =>
      refine ⟨?_, rfl, by simp [after, new, recorded]⟩
      show max capacity 1 = _
      omega
  | cons c past ih => exact ih.call c

theorem window_after (capacity : Nat) (calls : List Call) :
    (after capacity calls).window = (recorded calls).rtake (max capacity 1) := by
  have hpos : max capacity 1 - 1 + 1 = max capacity 1 := by omega
  rw [(stands_after capacity calls).window_eq, hpos]

/-! ## What is reported -/

/-- The mean in milliseconds, exactly. -/
def exactMean? (t : Timer) : Option ℚ := t.mean? Nat.cast

/-- The nanoseconds of the durations kept. -/
def nanos (t : Timer) : List Nat := t.window.map Duration.toNanos

theorem nanos_eq_nil_iff : t.nanos = [] ↔ t.window = [] := List.map_eq_nil_iff

theorem shortest_least (h : t.window ≠ []) :
    t.shortest.toNanos ∈ t.nanos ∧ ∀ n ∈ t.nanos, t.shortest.toNanos ≤ n := by
  have hsome : t.nanos.min?.isSome := List.isSome_min?_of_ne_nil (mt nanos_eq_nil_iff.mp h)
  obtain ⟨n, hn⟩ := Option.isSome_iff_exists.mp hsome
  have hnanos : t.shortest.toNanos = n := by
    rw [shortest, Duration.toNanos_ofNanos]
    exact congrArg (Option.getD · 0) hn
  rw [hnanos]
  exact List.min?_eq_some_iff.mp hn

theorem longest_greatest (h : t.window ≠ []) :
    t.longest.toNanos ∈ t.nanos ∧ ∀ n ∈ t.nanos, n ≤ t.longest.toNanos := by
  have hsome : t.nanos.max?.isSome := List.isSome_max?_of_ne_nil (mt nanos_eq_nil_iff.mp h)
  obtain ⟨n, hn⟩ := Option.isSome_iff_exists.mp hsome
  have hnanos : t.longest.toNanos = n := by
    rw [longest, Duration.toNanos_ofNanos]
    exact congrArg (Option.getD · 0) hn
  rw [hnanos]
  exact List.max?_eq_some_iff.mp hn

theorem mean?_eq {α : Type} [Add α] [Mul α] [Div α] (number : Nat → α) (h : t.window ≠ [])
    (hfits : t.nanos.sum < 2 ^ 64 * 1000000000) :
    t.mean? number =
      some ((Duration.ofNanos t.nanos.sum).millisIn number / number t.window.length) := by
  have hnonempty : t.window.isEmpty = false := by simpa using h
  have hseconds : t.nanos.sum / 1000000000 < 18446744073709551616 := by omega
  have htotal : t.total? = some (.ofNanos t.nanos.sum) := if_pos hseconds
  simp only [mean?, hnonempty, htotal, Bool.false_eq_true, if_false, Option.map_some]

theorem exactMean?_eq (hfits : t.nanos.sum < 2 ^ 64 * 1000000000) :
    t.exactMean? = some ((t.window.map Duration.exactMillis).sum / t.window.length) := by
  by_cases hempty : t.window = []
  · simp [exactMean?, mean?, hempty]
  · rw [exactMean?, mean?_eq Nat.cast hempty hfits, Duration.sum_exactMillis]
    congr 2
    exact Duration.exactMillis_ofNanos t.nanos.sum

theorem shortest_le_mean (t : Timer) :
    t.shortest.exactMillis ≤ (t.window.map Duration.exactMillis).sum / t.window.length := by
  by_cases hempty : t.window = []
  · simp [shortest, hempty, Duration.exactMillis_ofNanos]
  have hall : ∀ x ∈ t.window.map Duration.exactMillis, t.shortest.exactMillis ≤ x := by
    intro x hx
    obtain ⟨d, hd, rfl⟩ := List.mem_map.mp hx
    exact Duration.exactMillis_le ((shortest_least hempty).2 _ (List.mem_map_of_mem hd))
  have hsum := List.card_nsmul_le_sum _ _ hall
  rw [List.length_map, nsmul_eq_mul] at hsum
  have hpos : (0 : ℚ) < t.window.length := Nat.cast_pos.mpr (List.length_pos_of_ne_nil hempty)
  exact (le_div_iff₀' hpos).mpr hsum

theorem mean_le_longest (t : Timer) :
    (t.window.map Duration.exactMillis).sum / t.window.length ≤ t.longest.exactMillis := by
  by_cases hempty : t.window = []
  · simp [longest, hempty, Duration.exactMillis_ofNanos]
  have hall : ∀ x ∈ t.window.map Duration.exactMillis, x ≤ t.longest.exactMillis := by
    intro x hx
    obtain ⟨d, hd, rfl⟩ := List.mem_map.mp hx
    exact Duration.exactMillis_le ((longest_greatest hempty).2 _ (List.mem_map_of_mem hd))
  have hsum := List.sum_le_card_nsmul _ _ hall
  rw [List.length_map, nsmul_eq_mul] at hsum
  have hpos : (0 : ℚ) < t.window.length := Nat.cast_pos.mpr (List.length_pos_of_ne_nil hempty)
  exact (div_le_iff₀' hpos).mpr hsum

theorem average_of_empty (h : t.window = []) :
    t.average = 0 ∧ t.shortest.toMillis = 0 ∧ t.longest.toMillis = 0 := by
  have hzero : (Duration.ofNanos 0).toMillis = 0 := by decide
  refine ⟨?_, ?_, ?_⟩
  · simp only [average, mean?, h, List.isEmpty_nil, if_true, Option.getD_some]
    rfl
  · simpa [shortest, h] using hzero
  · simpa [longest, h] using hzero

/-- After any calls, the window holds the durations recorded last, the oldest first and as many as
the capacity allows, of which there is at least one. An end records a duration exactly if there was
a begin since the end before it. An empty window is reported as zeros; otherwise the shortest and the
longest duration are reported, and, if the durations have a sum, the sum over the length, which in
exact numbers lies between the two. -/
theorem window_is_last_recorded (capacity : Nat) (calls : List Call) :
    let t := after capacity calls
    (t.window <:+ recorded calls ∧
      t.window.length = min (recorded calls).length (max capacity 1)) ∧
    (∀ reading,
      (∃ start, BegunAt calls start ∧ Begun calls ∧ recorded (.finish reading :: calls) =
        recorded calls ++ [.ofNanos (reading.toNanos - start.toNanos)]) ∨
      (¬ Begun calls ∧ recorded (.finish reading :: calls) = recorded calls)) ∧
    (t.window = [] → t.average = 0 ∧ t.shortest.toMillis = 0 ∧ t.longest.toMillis = 0) ∧
    (t.window ≠ [] →
      (t.shortest.toNanos ∈ t.nanos ∧ ∀ n ∈ t.nanos, t.shortest.toNanos ≤ n) ∧
      (t.longest.toNanos ∈ t.nanos ∧ ∀ n ∈ t.nanos, n ≤ t.longest.toNanos)) ∧
    (t.nanos.sum < 2 ^ 64 * 1000000000 →
      (t.window ≠ [] → t.average =
        (Duration.ofNanos t.nanos.sum).toMillis / Float.ofNat t.window.length) ∧
      ∃ mean, t.exactMean? = some mean ∧
        mean = (t.window.map Duration.exactMillis).sum / t.window.length ∧
        t.shortest.exactMillis ≤ mean ∧ mean ≤ t.longest.exactMillis) := by
  intro t
  have hwindow : t.window = (recorded calls).rtake (max capacity 1) := window_after capacity calls
  refine ⟨⟨?_, ?_⟩, fun reading => ?_, average_of_empty, fun h => ?_, fun hfits => ⟨fun h => ?_, ?_⟩⟩
  · rw [hwindow]
    exact List.drop_suffix _ _
  · rw [hwindow, List.rtake, List.length_drop]
    omega
  · rcases recorded_finish calls reading with ⟨start, hbegun, hrecorded⟩ | hnone
    · exact Or.inl ⟨start, hbegun, hbegun.begun, hrecorded⟩
    · exact Or.inr hnone
  · exact ⟨shortest_least h, longest_greatest h⟩
  · rw [average, mean?_eq Float.ofNat h hfits]
    rfl
  · exact ⟨_, exactMean?_eq hfits, rfl, shortest_le_mean t, mean_le_longest t⟩

/-- Two begins and two ends record one duration, which drives the oldest out of a window of two. -/
theorem window_is_last_recorded_unpaired :
    let calls : List Call := [.finish ⟨9, 0⟩, .finish ⟨8, 0⟩, .begin ⟨5, 0⟩, .begin ⟨1, 0⟩,
      .record ⟨1, 500000000⟩, .record ⟨7, 0⟩]
    let t := after 2 calls
    t.window = [⟨1, 500000000⟩, ⟨3, 0⟩] ∧ t.window ≠ [] ∧ t.nanos.sum < 2 ^ 64 * 1000000000 ∧
      t.shortest.toNanos ∈ t.nanos ∧ t.exactMean? = some 2250 := by
  intro calls t
  have hwindow : t.window = [⟨1, 500000000⟩, ⟨3, 0⟩] := by decide
  have hnonempty : t.window ≠ [] := by rw [hwindow]; exact List.cons_ne_nil _ _
  have hfits : t.nanos.sum < 2 ^ 64 * 1000000000 := by decide
  obtain ⟨-, -, -, hbounds, hreport⟩ := window_is_last_recorded 2 calls
  obtain ⟨-, mean, hsome, hmean, -⟩ := hreport hfits
  refine ⟨hwindow, hnonempty, hfits, (hbounds hnonempty).1.1, ?_⟩
  have hvalue : mean = 2250 := by
    rw [hmean, hwindow]
    norm_num [Duration.exactMillis_eq, Duration.toNanos]
  rw [hsome, hvalue]

end Timer
end ScriptSandbox
