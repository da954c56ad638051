import ScriptSandbox.Json.Decoder

/-!
# What decoders give

Whatever text is decoded, the value has a property that the decoder vouches for (`Decoder.Gives`):
a natural number is below `2^64` (`natural_gives`), and the values of an object have the property
that each of them is read with (`members_gives`).
-/

namespace ScriptSandbox.Json

theorem Reader.failAhead_ne_ok {α : Type} {r : Reader} {reason : Reason} {a : α} :
    r.failAhead reason ≠ .ok a := by
  intro h
  rw [failAhead] at h
  split at h
  · cases h
  · split at h <;> cases h

/-! ## Numbers -/

theorem fitting_lt (cs : List Char) {n : Nat} (hn : n < Nat.pow 2 64) :
    (fitting n cs).1 < Nat.pow 2 64 := by
  induction cs generalizing n with
  | nil => exact hn
  | cons c cs ih =>
      simp only [fitting]
      split
      · next hfits => exact ih hfits
      · exact hn

section Numbers

variable {positive : Bool} {r r' : Reader} {n : Nat}

theorem readExponent_ne_natural {digits : Nat} {exponent : Int} :
    readExponent positive digits exponent r ≠ .ok (.natural n, r') := by
  intro h
  rw [readExponent] at h
  split at h
  split at h
  · cases h
  · split at h
    · cases h
    · simp only at h
      split at h
      · split at h <;> cases h
      · split at h <;> cases h

/-- A natural number is what its digits say, as far as they fit. -/
theorem readNumberTail_natural {whole : List Char}
    (h : readNumberTail positive whole r = .ok (.natural n, r')) : n < Nat.pow 2 64 := by
  have hfits : (fitting 0 whole).1 < Nat.pow 2 64 := fitting_lt whole (by decide)
  rw [readNumberTail] at h
  simp only at h
  split at h
  · -- There is a fraction.
    split at h
    · split at h <;> exact absurd h Reader.failAhead_ne_ok
    · split at h
      · exact absurd h readExponent_ne_natural
      · exact absurd h readExponent_ne_natural
      · split at h <;> cases h
  · exact absurd h readExponent_ne_natural
  · exact absurd h readExponent_ne_natural
  · split at h
    · split at h
      · exact absurd h readExponent_ne_natural
      · exact absurd h readExponent_ne_natural
      · split at h <;> cases h
    · split at h
      · cases h
        exact hfits
      · split at h <;> cases h

theorem readNumber_natural (h : readNumber positive r = .ok (.natural n, r')) :
    n < Nat.pow 2 64 := by
  rw [readNumber] at h
  split at h
  · cases h
  · split at h
    · simp only at h
      split at h
      · exact absurd h Reader.failAhead_ne_ok
      · exact readNumberTail_natural h
    · split at h
      · exact readNumberTail_natural h
      · cases h

end Numbers

/-! ## Decoders -/

theorem wrongTypeAhead_ne_ok {α : Type} {wanted : String} {r : Reader} {a : α} :
    wrongTypeAhead wanted r ≠ .ok a := by
  intro h
  rw [wrongTypeAhead] at h
  simp only at h
  split at h
  · split at h <;> cases h
  · split at h <;> cases h
  · split at h <;> cases h
  · split at h <;> cases h
  · split at h <;> cases h
  · cases h
  · cases h
  · split at h
    · split at h <;> cases h
    · exact Reader.failAhead_ne_ok h
  · exact Reader.failAhead_ne_ok h

/-- A step changes a state, if it succeeds, to one that has a property again. -/
theorem readMembers_of_step {σ : Type} {member : String → σ → Read σ} {P : σ → Prop}
    (hstep : ∀ k st st' r r', P st → member k st r = .ok (st', r') → P st') (fuel : Nat)
    {first : Bool} {st st' : σ} {r r' : Reader} (hst : P st)
    (h : readMembers member fuel first st r = .ok (st', r')) : P st' := by
  induction fuel generalizing first st r with
  | zero => exact absurd h Reader.failAhead_ne_ok
  | succ fuel ih =>
      rw [readMembers] at h
      split at h
      · cases h
      · cases h
        exact hst
      · split at h
        · cases h
        · next hmember => exact ih (hstep _ _ _ _ _ hst hmember) h

theorem readContainer_ok {α : Type} {close : Reader → Option Fault × Reader} {body : Read α}
    {r r' : Reader} {a : α} (h : readContainer close body r = .ok (a, r')) :
    ∃ r₁ r₂, body r₁ = .ok (a, r₂) := by
  rw [readContainer] at h
  split at h
  · exact absurd h Reader.failAhead_ne_ok
  · split at h
    · cases h
    · cases h
    · next hbody =>
        split at h
        · cases h
        · cases h
          exact ⟨_, _, hbody⟩

namespace Decoder

variable {α : Type} {d : Decoder α} {P : α → Prop}

/-- Whatever a decoder reads has a property. -/
def Gives (d : Decoder α) (P : α → Prop) : Prop :=
  ∀ (r r' : Reader) (a : α), d.read r = .ok (a, r') → P a

theorem natural_gives (kind : String) : (natural kind).Gives (· < Nat.pow 2 64) := by
  intro r r' n h
  simp only [natural, aheadOr] at h
  split at h
  · exact absurd h Reader.failAhead_ne_ok
  · split at h
    · split at h
      · cases h
      · next hread =>
          cases h
          exact readNumber_natural hread
      · cases h
      · cases h
    · split at h
      · split at h
        · cases h
        · next hread =>
            cases h
            exact readNumber_natural hread
        · cases h
        · cases h
      · exact absurd h wrongTypeAhead_ne_ok

theorem members_gives (h : d.Gives P) : d.members.Gives fun ms => ∀ e ∈ ms, P e.2 := by
  intro r r' ms hread
  simp only [members, aheadOr] at hread
  split at hread
  · exact absurd hread Reader.failAhead_ne_ok
  · split at hread
    · split at hread
      · next hcontainer =>
          cases hread
          obtain ⟨r₁, r₂, hbody⟩ := readContainer_ok hcontainer
          refine fun e he => readMembers_of_step (P := fun ms => ∀ e ∈ ms, P e.2) ?_ _
            (List.forall_mem_nil _) hbody e (List.mem_reverse.mp he)
          -- One member is read, and comes before the others.
          intro k ms ms' r r' hms hmember
          split at hmember
          · cases hmember
          · split at hmember
            · next hvalue =>
                cases hmember
                exact List.forall_mem_cons.mpr ⟨h _ _ _ hvalue, hms⟩
            · cases hmember
      · cases hread
    · exact absurd hread wrongTypeAhead_ne_ok

theorem Gives.run (h : d.Gives P) {s : String} {a : α} (hrun : d.run s = .ok a) : P a := by
  rw [Decoder.run] at hrun
  split at hrun
  · cases hrun
  · next hread =>
      simp only at hrun
      split at hrun
      · cases hrun
        exact h _ _ _ hread
      · exact absurd hrun Reader.failAhead_ne_ok

end Decoder

end ScriptSandbox.Json
