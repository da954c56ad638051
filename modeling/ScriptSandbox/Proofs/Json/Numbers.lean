import ScriptSandbox.Proofs.Json.Gives
import ScriptSandbox.Proofs.Json.Strings

/-!
# Numbers that are read

A number may be written in many ways, and what is read of it is what its numeral stands for
(`readNumber_yields`), be it a whole number of 64 bits, a real number or none at all. A number has no
end of its own, so a value must be followed by something that ends it (`Closes`), as every value in a
written document is. A number that is only passed over may be too large (`ignoreNumber_yields`).
-/

namespace ScriptSandbox.Json

/-! ## What a step yields -/

section Yields

variable {α β : Type}

/-- A reading step ends as `a?` says: with a value and before `tail`, or with a fault. -/
def Yields (x : Except Fault (α × Reader)) (a? : Option α) (tail : List Char) (depth : Nat) : Prop :=
  match a? with
  | some a => ∃ r, x = .ok (a, r) ∧ r.rest = tail ∧ r.depth = depth
  | none => ∃ f, x = .error f

theorem yields_none {x : Except Fault (α × Reader)} {tail : List Char} {depth : Nat}
    (h : ∀ a, x ≠ .ok a) : Yields x none tail depth := by
  cases x with
  | error f => exact ⟨f, rfl⟩
  | ok a => exact absurd rfl (h a)

/-- What a step `y` yields that begins with a step `x` and goes on from what `x` has read. -/
theorem Yields.bind {x : Except Fault (α × Reader)} {y : Except Fault (β × Reader)} {a? : Option α}
    {b? : α → Option β} {tail tail' : List Char} {depth depth' : Nat} (hx : Yields x a? tail depth)
    (hfault : ∀ f, x = .error f → ∃ f', y = .error f')
    (hvalue : ∀ a r, x = .ok (a, r) → r.rest = tail → r.depth = depth →
      Yields y (b? a) tail' depth') :
    Yields y (a?.bind b?) tail' depth' := by
  cases a? with
  | none =>
      obtain ⟨f, hf⟩ := hx
      exact hfault f hf
  | some a =>
      obtain ⟨r, hr, hrest, hdepth⟩ := hx
      exact hvalue a r hr hrest hdepth

theorem Yields.map {x : Except Fault (α × Reader)} {y : Except Fault (β × Reader)} {a? : Option α}
    {f : α → β} {tail : List Char} {depth : Nat} (hx : Yields x a? tail depth)
    (hfault : ∀ e, x = .error e → ∃ e', y = .error e')
    (hvalue : ∀ a r, x = .ok (a, r) → y = .ok (f a, r)) :
    Yields y (a?.map f) tail depth := by
  rw [Option.map_eq_bind]
  exact hx.bind hfault fun a r hr hrest hdepth => ⟨r, hvalue a r hr, hrest, hdepth⟩

end Yields

/-! ## What ends a value -/

/-- The characters that may follow a value in a written document. -/
def closers : List Char := [',', '\x7d', ']', ' ', '\n', '\t', '\r']

/-- What follows begins with a character that ends a value, if with any. -/
def Closes (tail : List Char) : Prop := ∀ c ∈ tail.head?, c ∈ closers

theorem closes_nil : Closes [] := fun _ hc => (Option.some_ne_none _ hc.symm).elim

theorem closes_cons {c : Char} (hc : c ∈ closers) (tail : List Char) : Closes (c :: tail) :=
  fun _ hc' => Option.some.inj hc' ▸ hc

theorem mem_closers_of_isBlank {c : Char} (hc : Reader.isBlank c = true) : c ∈ closers := by
  simp only [Reader.isBlank, Bool.or_eq_true, beq_iff_eq] at hc
  rcases hc with ((rfl | rfl) | rfl) | rfl <;> decide

/-- What ends a value still ends it with blanks before it. -/
theorem Closes.blanks {blanks tail : List Char} (hblanks : Blank blanks) (h : Closes tail) :
    Closes (blanks ++ tail) := by
  cases blanks with
  | nil => exact h
  | cons c cs => exact closes_cons (mem_closers_of_isBlank (hblanks c (List.mem_cons_self ..))) _

theorem closers_end_number :
    ∀ c ∈ closers, ('0' ≤ c && c ≤ '9') = false ∧ c ≠ '.' ∧ c ≠ 'e' ∧ c ≠ 'E' := by
  simp [closers]

theorem peek?_closes {r : Reader} (h : Closes r.rest) :
    r.peek? ≠ some '.' ∧ r.peek? ≠ some 'e' ∧ r.peek? ≠ some 'E' :=
  ⟨fun hc => (closers_end_number _ (h _ hc)).2.1 rfl,
    fun hc => (closers_end_number _ (h _ hc)).2.2.1 rfl,
    fun hc => (closers_end_number _ (h _ hc)).2.2.2 rfl⟩

/-! ## Digits -/

/-- Where no digit is ahead, none is taken. -/
theorem Digits.takeWhile_append (ds : Digits) {tail : List Char}
    (htail : ∀ c ∈ tail.head?, ('0' ≤ c && c ≤ '9') = false) :
    (ds.chars ++ tail).takeWhile (fun c => '0' ≤ c && c ≤ '9') = ds.chars := by
  have hnone : tail.takeWhile (fun c => '0' ≤ c && c ≤ '9') = [] := by
    cases tail with
    | nil => rfl
    | cons c tail =>
        exact List.takeWhile_cons_of_neg (by rw [htail c rfl]; exact Bool.false_ne_true)
  rw [List.takeWhile_append_of_pos ds.all_digits, hnone, List.append_nil]

theorem Closes.not_digit {tail : List Char} (h : Closes tail) :
    ∀ c ∈ tail.head?, ('0' ≤ c && c ≤ '9') = false :=
  fun c hc => (closers_end_number c (h c hc)).1

theorem digitAhead_eq_false {r : Reader} (h : ∀ c ∈ r.rest.head?, ('0' ≤ c && c ≤ '9') = false) :
    digitAhead r = false := by
  rw [digitAhead]
  split
  · next c hc => exact h c hc
  · rfl

theorem Digits.digitAhead (ds : Digits) {r : Reader} {tail : List Char}
    (h : r.rest = ds.chars ++ tail) : Json.digitAhead r = true := by
  obtain ⟨d, cs, hcs⟩ := List.exists_cons_of_ne_nil ds.nonempty
  rw [hcs] at h
  rw [Json.digitAhead, Reader.peek?_eq h]
  exact ds.all_digits d (hcs ▸ List.mem_cons_self ..)

def Digits.value (ds : Digits) : Nat := ds.chars.foldl (fun n c => n * 10 + (c.toNat - 48)) 0

theorem Digits.readDigits_eq (ds : Digits) {r : Reader} {tail : List Char}
    (htail : ∀ c ∈ tail.head?, ('0' ≤ c && c ≤ '9') = false) (h : r.rest = ds.chars ++ tail) :
    readDigits 0 r = (ds.value, r.skipMany ds.chars.length) := by
  rw [readDigits, h, ds.takeWhile_append htail]
  rfl

/-! ## Numbers -/

section Numbers

variable {positive : Bool} {r : Reader} {tail : List Char}

/-- Whether an exponent makes a number larger. -/
def Exponent.up (e : Exponent) : Bool := e.plus?.getD true

def scaledNumber? (positive : Bool) (digits : Nat) (exponent : Int) : Option Number :=
  (scaled? positive (Float.ofNat digits) exponent).map .real

def poweredNumber? (positive : Bool) (digits : Nat) (exponent : Int) :
    Option Exponent → Option Number
  | none => scaledNumber? positive digits exponent
  | some e =>
    if e.digits.value ≥ Nat.pow 2 31 then
      if digits != 0 && e.up then none else some (.real (if positive then 0.0 else -0.0))
    else
      scaledNumber? positive digits
        (if e.up then exponent + e.digits.value else exponent - e.digits.value)

def signed (positive : Bool) (digits : Nat) : Number :=
  if positive then .natural digits
  else if digits == 0 || digits > Nat.pow 2 63 then .real (-(Float.ofNat digits))
  else .negative (digits - 1)

/-- The number that a numeral stands for, if it is not too large. -/
def Numeral.number? (n : Numeral) : Option Number :=
  let (digits, excess) := fitting 0 n.whole.chars
  match n.fraction with
  | some ds =>
    let (digits, dropped) := fitting digits ds.chars
    poweredNumber? (!n.negative) digits
      ((excess : Int) - ((ds.chars.length - dropped : Nat) : Int)) n.exponent
  | none =>
    if n.exponent.isSome || excess != 0 then poweredNumber? (!n.negative) digits excess n.exponent
    else some (signed (!n.negative) digits)

theorem scaled_yields (positive : Bool) (digits : Nat) (exponent : Int) (h : r.rest = tail) :
    Yields
      (match scaled? positive (Float.ofNat digits) exponent with
        | some x => .ok (.real x, r)
        | none => r.fail .numberTooLarge)
      (scaledNumber? positive digits exponent) tail r.depth := by
  rw [scaledNumber?]
  cases scaled? positive (Float.ofNat digits) exponent with
  | none => exact ⟨_, rfl⟩
  | some x => exact ⟨r, rfl, h, rfl⟩

/-- A digit ahead is nothing else. -/
theorem Digits.peek?_ne (ds : Digits) (h : r.rest = ds.chars ++ tail) {c : Char}
    (hc : ('0' ≤ c && c ≤ '9') = false) : r.peek? ≠ some c := by
  intro hpeek
  have hdigit := ds.digitAhead h
  rw [Json.digitAhead, hpeek] at hdigit
  exact absurd (hc.symm.trans hdigit) (by decide)

theorem readExponent_yields (positive : Bool) (digits : Nat) (exponent : Int) (e : Exponent)
    (htail : Closes tail) (h : r.rest = e.behind ++ tail) :
    Yields (readExponent positive digits exponent r)
      (poweredNumber? positive digits exponent (some e)) tail r.depth := by
  rw [readExponent]
  split
  next up r' hsign =>
  obtain ⟨rfl, hrest, hdepth⟩ :
      up = e.up ∧ r'.rest = e.digits.chars ++ tail ∧ r'.depth = r.depth := by
    rcases e with ⟨capital, _ | _ | _, ds⟩
    · have hplus := ds.peek?_ne h (c := '+') rfl
      have hminus := ds.peek?_ne h (c := '-') rfl
      split at hsign
      · contradiction
      · contradiction
      · cases hsign
        exact ⟨rfl, h, rfl⟩
    · rw [Reader.peek?_eq h] at hsign
      cases hsign
      exact ⟨rfl, Reader.rest_skip h, r.depth_skip⟩
    · rw [Reader.peek?_eq h] at hsign
      cases hsign
      exact ⟨rfl, Reader.rest_skip h, r.depth_skip⟩
  have hbehind := Reader.rest_skipMany e.digits.chars hrest
  rw [← hdepth, ← r'.depth_skipMany e.digits.chars.length, poweredNumber?]
  simp only [e.digits.readDigits_eq htail.not_digit hrest, e.digits.digitAhead hrest, Bool.not_true,
    Bool.false_eq_true, if_false]
  split
  · next hpeek =>
      have hdigit := e.digits.digitAhead hrest
      rw [digitAhead, hpeek] at hdigit
      cases hdigit
  · split
    · split
      · exact ⟨_, rfl⟩
      · exact ⟨_, rfl, hbehind, rfl⟩
    · exact scaled_yields _ _ _ hbehind

/-- Behind the digits of a number, its exponent is read, if it has one. -/
theorem power_yields (positive : Bool) (digits : Nat) (exponent : Int) (n : Numeral)
    (htail : Closes tail) (h : r.rest = n.power ++ tail) :
    Yields
      (match r.peek? with
        | some 'e' | some 'E' => readExponent positive digits exponent r.skip
        | _ =>
          match scaled? positive (Float.ofNat digits) exponent with
          | some x => .ok (.real x, r)
          | none => r.fail .numberTooLarge)
      (poweredNumber? positive digits exponent n.exponent) tail r.depth := by
  rw [Numeral.power] at h
  cases hexponent : n.exponent with
  | none =>
      rw [hexponent] at h
      have hcloses : Closes r.rest := h.symm ▸ htail
      obtain ⟨-, he, hE⟩ := peek?_closes hcloses
      split
      · contradiction
      · contradiction
      · exact scaled_yields _ _ _ h
  | some e =>
      rw [hexponent] at h
      have hread := readExponent_yields positive digits exponent e htail (Reader.rest_skip h)
      rw [Reader.depth_skip] at hread
      rw [Reader.peek?_eq h]
      cases e.capital <;> exact hread

theorem Numeral.power_not_digit (n : Numeral) (htail : Closes tail) :
    ∀ c ∈ (n.power ++ tail).head?, ('0' ≤ c && c ≤ '9') = false := by
  rw [power]
  cases n.exponent with
  | none => exact htail.not_digit
  | some e =>
      rintro c ⟨⟩
      cases e.capital <;> rfl

theorem Numeral.behind_not_digit (n : Numeral) (htail : Closes tail) :
    ∀ c ∈ (n.behind ++ tail).head?, ('0' ≤ c && c ≤ '9') = false := by
  rw [behind]
  cases n.fraction with
  | none => exact n.power_not_digit htail
  | some ds =>
      rintro c ⟨⟩
      rfl

theorem readNumberTail_yields (n : Numeral) (htail : Closes tail) (h : r.rest = n.behind ++ tail) :
    Yields (readNumberTail (!n.negative) n.whole.chars r) n.number? tail r.depth := by
  rw [readNumberTail, Numeral.number?]
  rcases fitting 0 n.whole.chars with ⟨digits, excess⟩
  rw [Numeral.behind] at h
  cases hfraction : n.fraction with
  | some ds =>
      rw [hfraction] at h
      have hdigits : r.skip.rest = ds.chars ++ (n.power ++ tail) :=
        (Reader.rest_skip h).trans (List.append_assoc ..)
      have hbehind := Reader.rest_skipMany ds.chars hdigits
      have hsome : ds.chars.isEmpty = false := by simpa using ds.nonempty
      simp only [Reader.peek?_eq h, hdigits, ds.takeWhile_append (n.power_not_digit htail), hsome,
        Bool.false_eq_true, if_false]
      have hread := power_yields (!n.negative) (fitting digits ds.chars).1
        ((excess : Int) - ((ds.chars.length - (fitting digits ds.chars).2 : Nat) : Int)) n htail hbehind
      rw [Reader.depth_skipMany, Reader.depth_skip] at hread
      exact hread
  | none =>
      rw [hfraction] at h
      have hread := power_yields (!n.negative) digits excess n htail h
      rw [Numeral.power] at h
      cases hexponent : n.exponent with
      | some e =>
          rw [hexponent] at h hread
          rw [Reader.peek?_eq h] at hread ⊢
          rcases e with ⟨_ | _, plus?, ds⟩ <;> exact hread
      | none =>
          rw [hexponent] at h hread
          have hcloses : Closes r.rest := h.symm ▸ htail
          obtain ⟨hdot, he, hE⟩ := peek?_closes hcloses
          simp only [Option.isSome_none, Bool.false_or]
          split
          · exact scaled_yields _ _ _ h
          · rw [signed]
            split
            · exact ⟨r, rfl, h, rfl⟩
            · split <;> exact ⟨r, rfl, h, rfl⟩

/-- Where a number is ahead, it is zero or its first digit is another. -/
theorem Numeral.whole_cases (n : Numeral) :
    (n.whole.chars = ['0'] ∨
      ∃ d ds, n.whole.chars = d :: ds ∧ (d == '0') = false ∧ ('1' ≤ d && d ≤ '9') = true) := by
  obtain ⟨d, ds, hcons⟩ := List.exists_cons_of_ne_nil n.whole.nonempty
  by_cases hzero : d = '0'
  · exact .inl (n.leading (by rw [hcons, hzero]; rfl))
  · refine .inr ⟨d, ds, hcons, beq_eq_false_iff_ne.mpr hzero, ?_⟩
    have hdigit := n.whole.all_digits d (hcons ▸ List.mem_cons_self ..)
    have hcode : d.toNat ≠ 48 := fun h => hzero (Char.toNat_inj.mp h)
    simp only [Bool.and_eq_true, decide_eq_true_eq, Char.le_def, UInt32.le_iff_toNat_le] at hdigit ⊢
    have hlow : 48 ≤ d.toNat := hdigit.1
    exact ⟨show 49 ≤ d.toNat by omega, hdigit.2⟩

/-- Behind its sign, a number is read as what it stands for. -/
theorem readNumber_yields (n : Numeral) (htail : Closes tail) (h : r.rest = n.magnitude ++ tail) :
    Yields (readNumber (!n.negative) r) n.number? tail r.depth := by
  have hwhole : r.rest = n.whole.chars ++ (n.behind ++ tail) := h.trans (List.append_assoc ..)
  have hbehind := Reader.rest_skipMany n.whole.chars hwhole
  have hread := readNumberTail_yields n htail hbehind
  rw [Reader.depth_skipMany] at hread
  rcases n.whole_cases with hzero | ⟨d, ds, hcons, hne, hd⟩
  · rw [hzero] at hwhole hbehind hread
    have hdigit : digitAhead r.skip = false :=
      digitAhead_eq_false (hbehind ▸ n.behind_not_digit htail)
    rw [readNumber, hwhole]
    simp only [List.singleton_append, beq_self_eq_true, if_true, hdigit, Bool.false_eq_true, if_false]
    exact hread
  · have hrest : r.rest = d :: (ds ++ (n.behind ++ tail)) := by rw [hwhole, hcons]; rfl
    have htake : (r.rest.takeWhile fun c => '0' ≤ c && c ≤ '9') = n.whole.chars := by
      rw [hwhole, n.whole.takeWhile_append (n.behind_not_digit htail)]
    unfold readNumber
    split
    · next hnil => rw [hrest] at hnil; cases hnil
    · next c _ hc =>
        obtain ⟨rfl, -⟩ := List.cons.inj (hrest.symm.trans hc)
        rw [hne, if_neg Bool.false_ne_true, if_pos hd, htake]
        exact hread

/-- An exponent is passed over. -/
theorem ignoreExponent_yields (e : Exponent) (htail : Closes tail) (h : r.rest = e.behind ++ tail) :
    Yields (ignoreExponent r) (some ()) tail r.depth := by
  have hdigits {r' : Reader} (hrest : r'.rest = e.digits.chars ++ tail) (hdepth : r'.depth = r.depth) :
      Yields (if digitAhead r' then .ok ((), (readDigits 0 r').2) else r'.skip.fail .badNumber)
        (some ()) tail r.depth := by
    rw [if_pos (e.digits.digitAhead hrest), e.digits.readDigits_eq htail.not_digit hrest]
    exact ⟨_, rfl, Reader.rest_skipMany _ hrest, (r'.depth_skipMany _).trans hdepth⟩
  rw [ignoreExponent]
  rcases e with ⟨capital, _ | _ | _, ds⟩
  · have hplus := ds.peek?_ne h (c := '+') rfl
    have hminus := ds.peek?_ne h (c := '-') rfl
    split
    · contradiction
    · contradiction
    · exact hdigits h rfl
  · rw [Reader.peek?_eq h]
    exact hdigits (Reader.rest_skip h) r.depth_skip
  · rw [Reader.peek?_eq h]
    exact hdigits (Reader.rest_skip h) r.depth_skip

/-- Behind the digits of a number, its exponent is passed over, if it has one. -/
theorem ignorePower_yields (n : Numeral) (htail : Closes tail) (h : r.rest = n.power ++ tail) :
    Yields
      (match r.peek? with
        | some 'e' | some 'E' => ignoreExponent r.skip
        | _ => .ok ((), r))
      (some ()) tail r.depth := by
  rw [Numeral.power] at h
  cases hexponent : n.exponent with
  | none =>
      rw [hexponent] at h
      have hcloses : Closes r.rest := h.symm ▸ htail
      obtain ⟨-, he, hE⟩ := peek?_closes hcloses
      split
      · contradiction
      · contradiction
      · exact ⟨r, rfl, h, rfl⟩
  | some e =>
      rw [hexponent] at h
      have hread := ignoreExponent_yields e htail (Reader.rest_skip h)
      rw [Reader.depth_skip] at hread
      rw [Reader.peek?_eq h]
      cases e.capital <;> exact hread

/-- Behind its whole digits, the rest of a number is passed over. -/
theorem ignoreBehind_yields (n : Numeral) (htail : Closes tail) (h : r.rest = n.behind ++ tail) :
    Yields
      (match r.peek? with
        | some '.' =>
          if !digitAhead r.skip then r.skip.failAhead .badNumber
          else
            match (readDigits 0 r.skip).2.peek? with
            | some 'e' | some 'E' => ignoreExponent (readDigits 0 r.skip).2.skip
            | _ => .ok ((), (readDigits 0 r.skip).2)
        | some 'e' | some 'E' => ignoreExponent r.skip
        | _ => .ok ((), r))
      (some ()) tail r.depth := by
  rw [Numeral.behind] at h
  cases hfraction : n.fraction with
  | some ds =>
      rw [hfraction] at h
      have hdigits : r.skip.rest = ds.chars ++ (n.power ++ tail) :=
        (Reader.rest_skip h).trans (List.append_assoc ..)
      have hread := ignorePower_yields n htail (Reader.rest_skipMany ds.chars hdigits)
      rw [Reader.depth_skipMany, Reader.depth_skip] at hread
      simp only [Reader.peek?_eq h, ds.digitAhead hdigits, Bool.not_true, Bool.false_eq_true,
        if_false, ds.readDigits_eq (n.power_not_digit htail) hdigits]
      exact hread
  | none =>
      rw [hfraction] at h
      have hread := ignorePower_yields n htail h
      have hdot : r.peek? ≠ some '.' := by
        rw [Numeral.power] at h
        cases hexponent : n.exponent with
        | none =>
            rw [hexponent] at h
            exact (peek?_closes (show Closes r.rest from h.symm ▸ htail)).1
        | some e =>
            rw [hexponent] at h
            rw [Reader.peek?_eq h]
            cases e.capital <;> decide
      split
      · contradiction
      · next hpeek => rwa [hpeek] at hread
      · next hpeek => rwa [hpeek] at hread
      · split at hread
        · contradiction
        · contradiction
        · exact hread

/-- Behind its sign, every number is passed over. -/
theorem ignoreNumber_yields (n : Numeral) (htail : Closes tail) (h : r.rest = n.magnitude ++ tail) :
    Yields (ignoreNumber r) (some ()) tail r.depth := by
  have hwhole : r.rest = n.whole.chars ++ (n.behind ++ tail) := h.trans (List.append_assoc ..)
  have hbehind := Reader.rest_skipMany n.whole.chars hwhole
  have hread := ignoreBehind_yields n htail hbehind
  rw [Reader.depth_skipMany] at hread
  rcases n.whole_cases with hzero | ⟨d, ds, hcons, hne, hd⟩
  · rw [hzero] at hwhole hbehind hread
    have hdigit : digitAhead r.skip = false :=
      digitAhead_eq_false (hbehind ▸ n.behind_not_digit htail)
    rw [ignoreNumber, hwhole]
    simp only [List.singleton_append, beq_self_eq_true, if_true, hdigit, Bool.false_eq_true,
      if_false, bind, Except.bind]
    exact hread
  · have hrest : r.rest = d :: (ds ++ (n.behind ++ tail)) := by rw [hwhole, hcons]; rfl
    have hdigits := n.whole.readDigits_eq (n.behind_not_digit htail) hwhole
    rw [ignoreNumber]
    split
    · next hnil => rw [hrest] at hnil; cases hnil
    · next c _ hc =>
        obtain ⟨rfl, -⟩ := List.cons.inj (hrest.symm.trans hc)
        simp only [hne, Bool.false_eq_true, if_false, hd, if_true, hdigits, bind, Except.bind]
        exact hread

/-- Digits whose number fits 64 bits all fit. -/
theorem fitting_eq (k : Nat) (ds : List Char) (h : Nat.ofDigitChars 10 ds k < Nat.pow 2 64) :
    fitting k ds = (Nat.ofDigitChars 10 ds k, 0) := by
  have hle (k : Nat) (ds : List Char) : k ≤ Nat.ofDigitChars 10 ds k := by
    induction ds generalizing k with
    | nil => exact Nat.le_refl k
    | cons d ds ih =>
        have hstep : k ≤ 10 * k + (d.toNat - 48) := by omega
        exact Nat.le_trans hstep (ih _)
  induction ds generalizing k with
  | nil => rfl
  | cons d ds ih =>
      have hstep : Nat.ofDigitChars 10 (d :: ds) k =
          Nat.ofDigitChars 10 ds (k * 10 + (d.toNat - 48)) := by
        rw [Nat.mul_comm]
        rfl
      rw [hstep] at h ⊢
      have hsmall := Nat.lt_of_le_of_lt (hle _ ds) h
      rw [fitting, if_pos hsmall, ih _ h]

/-- A natural number that fits 64 bits stands for itself. -/
theorem number?_plain {n : Nat} (hn : n < Nat.pow 2 64) :
    (Numeral.plain false n).number? = some (.natural n) := by
  have hvalue : Nat.ofDigitChars 10 (Decimal.digitChars n) 0 = n := Nat.ofDigitChars_ten_toDigits
  have hfits : fitting 0 (Decimal.digitChars n) = (n, 0) := by
    rw [fitting_eq 0 _ (by rwa [hvalue]), hvalue]
  rw [Numeral.number?]
  simp only [Numeral.plain, Digits.ofNat, hfits]
  rfl

end Numbers

end ScriptSandbox.Json
