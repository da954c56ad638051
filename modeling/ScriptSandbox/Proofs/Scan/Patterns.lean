import Mathlib.Data.List.Basic
import ScriptSandbox.Scan.Imports

/-!
# Laws of patterns

Two judgements say what a pattern does to a text without running it. `Passes p b cs rest` says that
`p` can match `cs` where `b` stands before and `rest` behind; it is put together as patterns are.
`Stops p` says that `p` never looks behind a quote: what it makes of a text is the same whatever
stands behind the next quote, if each brace that is opened before the quote is closed before it. The
heads of statements stop, so that all they can find is what stands in the next quotes
(`thenQuoted_of_stops`).
-/

namespace ScriptSandbox.Scan

/-- The character before what follows a text. -/
def past : Option Char → List Char → Option Char
  | b, [] => b
  | _, c :: cs => past (some c) cs

@[simp] theorem past_nil (b : Option Char) : past b [] = b := rfl

@[simp] theorem past_cons (b : Option Char) (c : Char) (cs : List Char) :
    past b (c :: cs) = past (some c) cs := rfl

@[simp] theorem past_append (b : Option Char) (cs ds : List Char) :
    past b (cs ++ ds) = past (past b cs) ds := by
  induction cs generalizing b with
  | nil => rfl
  | cons c cs ih => exact ih (some c)

theorem past_eq_getLast? {cs : List Char} (h : cs ≠ []) (b : Option Char) :
    past b cs = cs.getLast? := by
  obtain ⟨front, c, rfl⟩ := List.eq_nil_or_concat cs |>.resolve_left h
  rw [List.concat_eq_append, past_append, List.getLast?_concat]
  rfl

theorem any_head?_of_append {p : Char → Bool} {front back : List Char}
    (h : (front ++ back).head?.any p = false) : front.head?.any p = false := by
  cases front with
  | nil => rfl
  | cons c cs => exact h

/-- The first character outside a class is at one place. -/
theorem eq_of_append_first {p : Char → Bool} {front front' back back' : List Char} {c c' : Char}
    (hfront : ∀ d ∈ front, p d = true) (hfront' : ∀ d ∈ front', p d = true) (hc : p c = false)
    (hc' : p c' = false) (h : front ++ c :: back = front' ++ c' :: back') :
    front = front' ∧ c = c' ∧ back = back' := by
  induction front generalizing front' with
  | nil =>
      cases front' with
      | nil => exact ⟨rfl, List.cons.inj h⟩
      | cons d ds =>
          rw [(List.cons.inj h).1, hfront' d (List.mem_cons_self ..)] at hc
          cases hc
  | cons d ds ih =>
      cases front' with
      | nil =>
          rw [← (List.cons.inj h).1, hfront d (List.mem_cons_self ..)] at hc'
          cases hc'
      | cons e es =>
          obtain ⟨rfl, hrest⟩ := List.cons.inj h
          rw [List.forall_mem_cons] at hfront hfront'
          obtain ⟨rfl, rfl, rfl⟩ := ih hfront.2 hfront'.2 hrest
          exact ⟨rfl, rfl, rfl⟩

def Spot.extend (s : Spot) (more : List Char) : Spot := ⟨s.before, s.rest ++ more⟩

/-- Whether a character opens or closes a list of names. -/
def isBrace (c : Char) : Bool := c == '\x7b' || c == '\x7d'

/-- No brace is left open. -/
def Enclosed (cs : List Char) : Prop := ∀ t, '\x7b' :: t <:+ cs → ∃ c ∈ t, isBrace c = true

theorem Enclosed.of_suffix {cs ds : List Char} (h : Enclosed cs) (hds : ds <:+ cs) : Enclosed ds :=
  fun t ht => h t (ht.trans hds)

theorem enclosed_of_not_mem {cs : List Char} (h : '\x7b' ∉ cs) : Enclosed cs :=
  fun _ ht => absurd (ht.subset (List.mem_cons_self ..)) h

theorem Enclosed.append {cs ds : List Char} (h : '\x7b' ∉ cs) (hds : Enclosed ds) :
    Enclosed (cs ++ ds) := by
  induction cs with
  | nil => exact hds
  | cons c cs ih =>
      rw [List.mem_cons, not_or] at h
      intro t ht
      rcases List.suffix_cons_iff.mp ht with heq | ht
      · exact absurd (List.cons.inj heq).1 h.1
      · exact ih h.2 t ht

theorem Enclosed.append_plain {cs ds : List Char} (h : Enclosed cs) (hds : '\x7b' ∉ ds) :
    Enclosed (cs ++ ds) := by
  induction cs with
  | nil => exact enclosed_of_not_mem hds
  | cons c cs ih =>
      intro t ht
      rcases List.suffix_cons_iff.mp ht with heq | ht
      · obtain ⟨rfl, rfl⟩ := List.cons.inj heq
        obtain ⟨d, hd, hbrace⟩ := h cs (List.suffix_refl _)
        exact ⟨d, List.mem_append_left _ hd, hbrace⟩
      · exact ih (h.of_suffix (List.suffix_cons c cs)) t ht

theorem Enclosed.cons {cs : List Char} (h : ∃ c ∈ cs, isBrace c = true) (hcs : Enclosed cs) :
    Enclosed ('\x7b' :: cs) := by
  intro t ht
  rcases List.suffix_cons_iff.mp ht with heq | ht
  · rw [(List.cons.inj heq).2]
    exact h
  · exact hcs t ht

namespace Pattern

variable {p q : Pattern} {pr : Char → Bool} {b : Option Char} {c : Char} {cs ds rest : List Char}

/-! ## Passing a text -/

/-- A pattern can match a text, given what stands before and behind it. -/
def Passes (p : Pattern) (b : Option Char) (cs rest : List Char) : Prop :=
  (⟨past b cs, rest⟩ : Spot) ∈ p ⟨b, cs ++ rest⟩

theorem passes_one (h : pr c = true) : Passes (one pr) b [c] rest := by
  simp [Passes, one, h]

theorem Passes.seq (hp : Passes p b cs (ds ++ rest)) (hq : Passes q (past b cs) ds rest) :
    Passes (seq p q) b (cs ++ ds) rest := by
  refine List.mem_flatMap.mpr ⟨⟨past b cs, ds ++ rest⟩, ?_, ?_⟩
  · rw [List.append_assoc]
    exact hp
  · rw [past_append]
    exact hq

theorem Passes.seq_nil (hp : Passes p b cs rest) (hq : Passes q (past b cs) [] rest) :
    Passes (Pattern.seq p q) b cs rest := by
  have hseq : Passes (Pattern.seq p q) b (cs ++ []) rest := Passes.seq hp hq
  rwa [List.append_nil] at hseq

theorem Passes.alt_left (h : Passes p b cs rest) : Passes (alt p q) b cs rest :=
  List.mem_append_left _ h

theorem Passes.alt_right (h : Passes q b cs rest) : Passes (alt p q) b cs rest :=
  List.mem_append_right _ h

theorem Passes.opt (h : Passes p b cs rest) : Passes (opt p) b cs rest :=
  List.mem_append_left _ h

theorem passes_opt_nil : Passes (opt p) b [] rest :=
  List.mem_append_right _ (List.mem_singleton.mpr rfl)

theorem passes_all_nil : Passes (all []) b [] rest := List.mem_singleton.mpr rfl

theorem passes_all_cons {ps : List Pattern} (hp : Passes p b cs (ds ++ rest))
    (hps : Passes (all ps) (past b cs) ds rest) : Passes (all (p :: ps)) b (cs ++ ds) rest :=
  hp.seq hps

/-- A pattern that matches nothing. -/
theorem passes_all_zero {ps : List Pattern} (hp : Passes p b [] (cs ++ rest))
    (hps : Passes (all ps) b cs rest) : Passes (all (p :: ps)) b cs rest :=
  hp.seq hps

theorem passes_all_one (hp : Passes p b cs rest) : Passes (all [p]) b cs rest :=
  List.mem_flatMap.mpr ⟨_, hp, List.mem_singleton.mpr rfl⟩

theorem passes_all_append {ps qs : List Pattern} (hps : Passes (all ps) b cs (ds ++ rest))
    (hqs : Passes (all qs) (past b cs) ds rest) : Passes (all (ps ++ qs)) b (cs ++ ds) rest := by
  have hall {ps : List Pattern} {s s' s'' : Spot} (hps : s' ∈ all ps s) (hqs : s'' ∈ all qs s') :
      s'' ∈ all (ps ++ qs) s := by
    induction ps generalizing s with
    | nil => exact List.mem_singleton.mp hps ▸ hqs
    | cons p ps ih =>
        obtain ⟨s₁, hs₁, hrest⟩ := List.mem_flatMap.mp hps
        exact List.mem_flatMap.mpr ⟨s₁, hs₁, ih hrest⟩
  rw [Passes, past_append, List.append_assoc]
  exact hall hps hqs

theorem passes_word {w : String} (hcs : cs = w.toList) : Passes (word w) b cs rest := by
  subst hcs
  rw [word]
  induction w.toList generalizing b with
  | nil => exact passes_all_nil
  | cons c cs ih =>
      have hone : Passes (one (· == c)) b [c] (cs ++ rest) := passes_one (by simp)
      exact hone.seq ih

theorem run_go_append (hcs : ∀ c ∈ cs, pr c = true) (hrest : ∀ c ∈ rest.head?, pr c = false) :
    run.go pr b (cs ++ rest) = ⟨past b cs, rest⟩ := by
  induction cs generalizing b with
  | nil =>
      cases rest with
      | nil => rfl
      | cons c rest => simp [run.go, hrest c rfl]
  | cons c cs ih =>
      rw [List.forall_mem_cons] at hcs
      simp only [List.cons_append, run.go, hcs.1, if_true]
      exact ih hcs.2

theorem passes_many (hcs : ∀ c ∈ cs, pr c = true) (hrest : ∀ c ∈ rest.head?, pr c = false) :
    Passes (many pr) b cs rest :=
  List.mem_singleton.mpr (run_go_append hcs hrest).symm

theorem passes_many1 (hne : cs ≠ []) (hcs : ∀ c ∈ cs, pr c = true)
    (hrest : ∀ c ∈ rest.head?, pr c = false) : Passes (many1 pr) b cs rest := by
  obtain ⟨c, cs, rfl⟩ := List.exists_cons_of_ne_nil hne
  rw [List.forall_mem_cons] at hcs
  have hone : Passes (one pr) b [c] (cs ++ rest) := passes_one hcs.1
  exact hone.seq (passes_many hcs.2 hrest)

theorem mem_some1_go {found : List Spot} {s : Spot} (h : s ∈ found) (cs : List Char) :
    s ∈ some1.go pr found cs := by
  induction cs generalizing found with
  | nil => exact h
  | cons c cs ih =>
      rw [some1.go]
      split
      · exact ih (List.mem_cons_of_mem _ h)
      · exact h

/-- A name may end before it has to. -/
theorem passes_some1 (hne : cs ≠ []) (hcs : ∀ c ∈ cs, pr c = true) :
    Passes (some1 pr) b cs rest := by
  have hgo (found : List Spot) : (⟨past b cs, rest⟩ : Spot) ∈ some1.go pr found (cs ++ rest) := by
    induction cs generalizing b found with
    | nil => exact absurd rfl hne
    | cons c cs ih =>
        rw [List.forall_mem_cons] at hcs
        simp only [List.cons_append, some1.go, hcs.1, if_true]
        cases cs with
        | nil => exact mem_some1_go (List.mem_cons_self ..) rest
        | cons d cs => exact ih (b := some c) (List.cons_ne_nil d cs) hcs.2 _
  exact hgo []

theorem passes_boundary (h : (b.any Text.isWord) ≠ (rest.head?.any Text.isWord)) :
    Passes boundary b [] rest := by
  simp [Passes, boundary, atBoundary, h]

/-! ## Stopping at a quote -/

/-- A pattern moves forward. -/
def Forward (p : Pattern) : Prop := ∀ s, ∀ s' ∈ p s, s'.rest <:+ s.rest

theorem Forward.seq (hp : Forward p) (hq : Forward q) : Forward (seq p q) := by
  intro s s' hs'
  obtain ⟨s₁, hs₁, hs'⟩ := List.mem_flatMap.mp hs'
  exact (hq s₁ s' hs').trans (hp s s₁ hs₁)

theorem forward_one (pr : Char → Bool) : Forward (one pr) := by
  rintro ⟨b, cs⟩ s' hs'
  cases cs with
  | nil => cases hs'
  | cons c cs =>
      simp only [one] at hs'
      split at hs'
      · obtain rfl := List.mem_singleton.mp hs'
        exact List.suffix_cons ..
      · cases hs'

theorem Forward.alt (hp : Forward p) (hq : Forward q) : Forward (alt p q) := by
  intro s s' hs'
  rcases List.mem_append.mp hs' with hs' | hs'
  · exact hp s s' hs'
  · exact hq s s' hs'

theorem forward_id : Forward fun s => [s] := by
  intro s s' hs'
  obtain rfl := List.mem_singleton.mp hs'
  exact List.suffix_refl _

theorem Forward.opt (hp : Forward p) : Forward (opt p) := hp.alt forward_id

theorem forward_all {ps : List Pattern} (h : ∀ p ∈ ps, Forward p) : Forward (all ps) := by
  induction ps with
  | nil => exact forward_id
  | cons p ps ih =>
      rw [List.forall_mem_cons] at h
      exact h.1.seq (ih h.2)

theorem run_go_suffix (pr : Char → Bool) (b : Option Char) (cs : List Char) :
    (run.go pr b cs).rest <:+ cs := by
  induction cs generalizing b with
  | nil => exact List.suffix_refl _
  | cons c cs ih =>
      rw [run.go]
      split
      · exact (ih (some c)).trans (List.suffix_cons ..)
      · exact List.suffix_refl _

theorem forward_many (pr : Char → Bool) : Forward (many pr) := by
  intro s s' hs'
  obtain rfl := List.mem_singleton.mp hs'
  exact run_go_suffix pr s.before s.rest

theorem forward_some1 (pr : Char → Bool) : Forward (some1 pr) := by
  intro s s' hs'
  have hgo (found : List Spot) (cs : List Char) (hcs : cs <:+ s.rest)
      (hfound : ∀ s' ∈ found, s'.rest <:+ s.rest) :
      ∀ s' ∈ some1.go pr found cs, s'.rest <:+ s.rest := by
    induction cs generalizing found with
    | nil => exact hfound
    | cons c cs ih =>
        rw [some1.go]
        split
        · have hrest : cs <:+ s.rest := (List.suffix_cons c cs).trans hcs
          exact ih _ hrest (List.forall_mem_cons.mpr ⟨hrest, hfound⟩)
        · exact hfound
  exact hgo [] s.rest (List.suffix_refl _) (fun s' hs' => absurd hs' List.not_mem_nil) s' hs'

theorem forward_boundary : Forward boundary := by
  intro s s' hs'
  rw [boundary] at hs'
  split at hs'
  · exact forward_id s s' hs'
  · cases hs'

/-- What a pattern makes of a text in which no brace is left open does not depend on what stands
behind the next quote. -/
structure Stops (p : Pattern) : Prop where
  forward : Forward p
  ahead : ∀ s κ more, Enclosed s.rest → isQuote κ = true →
    p (s.extend (κ :: more)) = (p s).map (·.extend (κ :: more))

theorem stops_one (h : ∀ κ, isQuote κ = true → pr κ = false) : Stops (one pr) := by
  refine ⟨forward_one pr, fun s κ more _ hκ => ?_⟩
  rcases s with ⟨b, _ | ⟨c, cs⟩⟩
  · simp [one, Spot.extend, h κ hκ]
  · simp only [one, Spot.extend, List.cons_append]
    split <;> rfl

theorem seq_extend {s : Spot} {more : List Char}
    (hp : p (s.extend more) = (p s).map (·.extend more))
    (hq : ∀ s' ∈ p s, q (s'.extend more) = (q s').map (·.extend more)) :
    seq p q (s.extend more) = (seq p q s).map (·.extend more) :=
  calc (p (s.extend more)).flatMap q
      = ((p s).map (·.extend more)).flatMap q := by rw [hp]
    _ = (p s).flatMap fun s' => q (s'.extend more) := List.flatMap_map ..
    _ = (p s).flatMap fun s' => (q s').map (·.extend more) := List.flatMap_congr hq
    _ = ((p s).flatMap q).map (·.extend more) := (List.map_flatMap ..).symm

theorem Stops.seq (hp : Stops p) (hq : Stops q) : Stops (seq p q) :=
  ⟨hp.forward.seq hq.forward, fun s κ more hs hκ => seq_extend (hp.ahead s κ more hs hκ)
    fun s' hs' => hq.ahead s' κ more (hs.of_suffix (hp.forward s s' hs')) hκ⟩

theorem Stops.alt (hp : Stops p) (hq : Stops q) : Stops (alt p q) := by
  refine ⟨hp.forward.alt hq.forward, fun s κ more hs hκ => ?_⟩
  rw [Pattern.alt, Pattern.alt, List.map_append, hp.ahead s κ more hs hκ,
    hq.ahead s κ more hs hκ]

theorem stops_id : Stops fun s => [s] := ⟨forward_id, fun _ _ _ _ _ => rfl⟩

theorem Stops.opt (hp : Stops p) : Stops (opt p) := hp.alt stops_id

theorem stops_all {ps : List Pattern} (h : ∀ p ∈ ps, Stops p) : Stops (all ps) := by
  induction ps with
  | nil => exact stops_id
  | cons p ps ih =>
      rw [List.forall_mem_cons] at h
      exact h.1.seq (ih h.2)

theorem stops_word {w : String} (h : ∀ c ∈ w.toList, isQuote c = false) : Stops (word w) := by
  refine stops_all (List.forall_mem_map.mpr fun c hc => stops_one fun κ hκ => ?_)
  refine beq_eq_false_iff_ne.mpr fun heq => ?_
  rw [heq, h c hc] at hκ
  cases hκ

theorem run_go_extend {more : List Char} (h : (∃ c ∈ cs, pr c = false) ∨
    ∀ c ∈ more.head?, pr c = false) (b : Option Char) :
    run.go pr b (cs ++ more) = (run.go pr b cs).extend more := by
  induction cs generalizing b with
  | nil =>
      cases more with
      | nil => rfl
      | cons c more =>
          have hc : pr c = false := h.elim (fun h => absurd h (by simp)) fun h => h c rfl
          simp [run.go, hc, Spot.extend]
  | cons c cs ih =>
      simp only [List.cons_append, run.go]
      split
      · next hc =>
          refine ih (h.imp_left fun h => ?_) (some c)
          obtain ⟨d, hd, hfalse⟩ := h
          rcases List.mem_cons.mp hd with rfl | hd
          · rw [hc] at hfalse; cases hfalse
          · exact ⟨d, hd, hfalse⟩
      · rfl

theorem stops_many (h : ∀ κ, isQuote κ = true → pr κ = false) : Stops (many pr) := by
  refine ⟨forward_many pr, fun s κ more _ hκ => ?_⟩
  have hrun : run.go pr s.before (s.rest ++ κ :: more) =
      (run.go pr s.before s.rest).extend (κ :: more) :=
    run_go_extend (.inr fun c hc => by rw [← Option.some.inj hc]; exact h κ hκ) s.before
  exact congrArg (fun s => [s]) hrun

theorem stops_many1 (h : ∀ κ, isQuote κ = true → pr κ = false) : Stops (many1 pr) :=
  (stops_one h).seq (stops_many h)

theorem stops_some1 (h : ∀ κ, isQuote κ = true → pr κ = false) : Stops (some1 pr) := by
  refine ⟨forward_some1 pr, fun s κ more _ hκ => ?_⟩
  have hgo (found : List Spot) (cs : List Char) :
      some1.go pr (found.map (·.extend (κ :: more))) (cs ++ κ :: more) =
        (some1.go pr found cs).map (·.extend (κ :: more)) := by
    induction cs generalizing found with
    | nil => simp [some1.go, h κ hκ]
    | cons c cs ih =>
        simp only [List.cons_append, some1.go]
        split
        · exact ih (⟨some c, cs⟩ :: found)
        · rfl
  exact hgo [] s.rest

theorem isWord_of_isQuote {κ : Char} (h : isQuote κ = true) : Text.isWord κ = false := by
  simp only [isQuote, Bool.or_eq_true, beq_iff_eq] at h
  rcases h with (rfl | rfl) | rfl <;> decide

theorem stops_boundary : Stops boundary := by
  refine ⟨forward_boundary, fun s κ more _ hκ => ?_⟩
  have hsame : atBoundary (s.extend (κ :: more)) = atBoundary s := by
    rcases s with ⟨b, _ | ⟨c, cs⟩⟩
    · simp [atBoundary, Spot.extend, isWord_of_isQuote hκ]
    · rfl
  simp only [boundary, hsame]
  split <;> rfl

theorem one_extend {s : Spot} (h : s.rest ≠ []) (more : List Char) :
    one pr (s.extend more) = (one pr s).map (·.extend more) := by
  rcases s with ⟨b, _ | ⟨c, cs⟩⟩
  · exact absurd rfl h
  · simp only [one, Spot.extend, List.cons_append]
    split <;> rfl

theorem run_go_rest_ne_nil (h : ∃ c ∈ cs, pr c = false) (b : Option Char) :
    (run.go pr b cs).rest ≠ [] := by
  induction cs generalizing b with
  | nil => simp at h
  | cons c cs ih =>
      rw [run.go]
      split
      · next hc =>
          obtain ⟨d, hd, hfalse⟩ := h
          rcases List.mem_cons.mp hd with rfl | hd
          · rw [hc] at hfalse; cases hfalse
          · exact ih ⟨d, hd, hfalse⟩ (some c)
      · exact List.cons_ne_nil c cs

theorem isQuote_beq {c : Char} (hc : isQuote c = false) (κ : Char) (hκ : isQuote κ = true) :
    (κ == c) = false :=
  beq_eq_false_iff_ne.mpr fun heq => by
    rw [heq, hc] at hκ
    cases hκ

/-- A list of names is looked for up to the next brace, which stands before the next quote. -/
theorem stops_braced : Stops braced := by
  refine ⟨forward_all (by simp [forward_one, forward_many]), fun s κ more hs hκ => ?_⟩
  have hopening := stops_one (isQuote_beq (c := '\x7b') (by decide))
  refine seq_extend (hopening.ahead s κ more hs hκ) fun s₁ hs₁ => ?_
  have hinner : ∃ c ∈ s₁.rest, (c != '\x7b' && c != '\x7d') = false := by
    obtain ⟨b, cs⟩ := s
    cases cs with
    | nil => cases hs₁
    | cons c cs =>
        simp only [one] at hs₁
        split at hs₁
        · next hc =>
            obtain rfl := List.mem_singleton.mp hs₁
            obtain rfl := beq_iff_eq.mp hc
            obtain ⟨d, hd, hbrace⟩ := hs cs (List.suffix_refl _)
            refine ⟨d, hd, ?_⟩
            simp only [isBrace, Bool.or_eq_true, beq_iff_eq] at hbrace
            rcases hbrace with rfl | rfl <;> rfl
        · cases hs₁
  refine seq_extend ?_ fun s₂ hs₂ => ?_
  · exact congrArg (fun s => [s]) (run_go_extend (.inl hinner) s₁.before)
  · obtain rfl := List.mem_singleton.mp hs₂
    exact seq_extend (one_extend (run_go_rest_ne_nil hinner s₁.before) _) fun _ _ => rfl

/-! ## Heads of statements

Every pattern that is searched for begins with a word where no word goes on. -/

theorem mem_boundary {s s' : Spot} : s' ∈ boundary s ↔ atBoundary s = true ∧ s' = s := by
  rw [boundary]
  split
  · next h => simp [h]
  · next h => simp [h]

theorem mem_one {s s' : Spot} :
    s' ∈ one pr s ↔ ∃ c cs, s.rest = c :: cs ∧ pr c = true ∧ s' = ⟨some c, cs⟩ := by
  rcases s with ⟨b, _ | ⟨c, cs⟩⟩
  · simp [one]
  · by_cases hc : pr c = true
    · simp [one, hc]
    · simp only [one, hc]
      refine ⟨fun h => absurd h List.not_mem_nil, fun h => ?_⟩
      obtain ⟨d, ds, hrest, hd, -⟩ := h
      obtain ⟨rfl, -⟩ := List.cons.inj hrest
      exact absurd hd hc

theorem mem_seq {s s' : Spot} : s' ∈ seq p q s ↔ ∃ s₁ ∈ p s, s' ∈ q s₁ := List.mem_flatMap

theorem mem_all_nil {s s' : Spot} : s' ∈ all [] s ↔ s' = s := List.mem_singleton

theorem mem_all_cons {ps : List Pattern} {s s' : Spot} :
    s' ∈ all (p :: ps) s ↔ ∃ s₁ ∈ p s, s' ∈ all ps s₁ := mem_seq

theorem mem_opt {s s' : Spot} : s' ∈ opt p s ↔ s' ∈ p s ∨ s' = s :=
  List.mem_append.trans (or_congr Iff.rfl List.mem_singleton)

theorem mem_alt {s s' : Spot} : s' ∈ alt p q s ↔ s' ∈ p s ∨ s' ∈ q s := List.mem_append

theorem eq_run_of_mem_blanks {s s' : Spot} (h : s' ∈ blanks s) : s' = run Text.isBlank s :=
  List.mem_singleton.mp h

theorem eq_of_mem_word {w : String} {s s' : Spot} (h : s' ∈ word w s) :
    s.rest = w.toList ++ s'.rest ∧ s'.before = past s.before w.toList := by
  rw [word] at h
  generalize w.toList = cs at h ⊢
  induction cs generalizing s with
  | nil =>
      obtain rfl := mem_all_nil.mp h
      exact ⟨rfl, rfl⟩
  | cons c cs ih =>
      obtain ⟨s₁, hs₁, hs'⟩ := mem_all_cons.mp h
      obtain ⟨d, ds, hrest, hd, rfl⟩ := mem_one.mp hs₁
      obtain rfl := beq_iff_eq.mp hd
      obtain ⟨hds, hbefore⟩ := ih hs'
      exact ⟨by rw [hrest]; exact congrArg (d :: ·) hds, hbefore⟩

theorem mem_head {w : String} {ps : List Pattern} {s s' : Spot}
    (h : s' ∈ all (boundary :: word w :: ps) s) :
    atBoundary s = true ∧
      ∃ rest, s.rest = w.toList ++ rest ∧ s' ∈ all ps ⟨past s.before w.toList, rest⟩ := by
  obtain ⟨s₁, hs₁, hword⟩ := mem_all_cons.mp h
  obtain ⟨hbound, rfl⟩ := mem_boundary.mp hs₁
  obtain ⟨⟨b, rest⟩, hs₂, hlast⟩ := mem_all_cons.mp hword
  obtain ⟨hrest, hbefore⟩ := eq_of_mem_word hs₂
  exact ⟨hbound, rest, hrest, hbefore ▸ hlast⟩

theorem seq_congr {s s' : Spot} (h : p s = p s') : seq p q s = seq p q s' :=
  congrArg (List.flatMap q) h

theorem one_before (b b' : Option Char) (cs : List Char) : one pr ⟨b, cs⟩ = one pr ⟨b', cs⟩ := by
  cases cs <;> rfl

theorem word_before {w : String} (hw : w ≠ "") (b b' : Option Char) (cs : List Char) :
    word w ⟨b, cs⟩ = word w ⟨b', cs⟩ := by
  obtain ⟨c, w', hcs⟩ := List.exists_cons_of_ne_nil (mt String.toList_eq_nil_iff.mp hw)
  rw [word, hcs]
  exact seq_congr (one_before b b' cs)

/-- What stands before a head matters only as far as a word may go on. -/
theorem head_before {w : String} {ps : List Pattern} (hw : w ≠ "") {b b' : Option Char}
    (h : b.any Text.isWord = b'.any Text.isWord) (cs : List Char) :
    all (boundary :: word w :: ps) ⟨b, cs⟩ = all (boundary :: word w :: ps) ⟨b', cs⟩ := by
  have hbound : atBoundary ⟨b, cs⟩ = atBoundary ⟨b', cs⟩ := by rw [atBoundary, atBoundary, h]
  have hat (s : Spot) : all (boundary :: word w :: ps) s =
      if atBoundary s then seq (word w) (all ps) s else [] := by
    change (if atBoundary s then [s] else []).flatMap _ = _
    split
    · exact List.flatMap_singleton ..
    · rfl
  rw [hat, hat, hbound]
  split
  · exact seq_congr (word_before hw b b' cs)
  · rfl

end Pattern

/-! ## What stands in quotes -/

/-- A text that quotes of a kind can hold. -/
def Quotable (κ : Char) (text : List Char) : Prop := ∀ c ∈ text, c ≠ κ ∧ (κ = '`' ∨ c ≠ '\n')

theorem quoted?_eq {κ : Char} {text : List Char} (hκ : isQuote κ = true) (h : Quotable κ text)
    (b : Option Char) (rest : List Char) :
    quoted? ⟨b, κ :: (text ++ κ :: rest)⟩ = some (text, ⟨some κ, rest⟩) := by
  have hinside : ∀ c ∈ text, (c != κ && (κ == '`' || c != '\n')) = true := by
    intro c hc
    obtain ⟨hne, hline⟩ := h c hc
    simpa [hne] using hline
  have hdrop : (text ++ κ :: rest).dropWhile (fun c => c != κ && (κ == '`' || c != '\n')) =
      κ :: rest := by
    rw [List.dropWhile_append_of_pos hinside]
    simp
  have htake : (text ++ κ :: rest).takeWhile (fun c => c != κ && (κ == '`' || c != '\n')) =
      text := by
    rw [List.takeWhile_append_of_pos hinside]
    simp
  simp [quoted?, hκ, hdrop, htake]

theorem eq_of_quoted? {s s' : Spot} {text : List Char} (h : quoted? s = some (text, s')) :
    ∃ κ after, isQuote κ = true ∧ s.rest = κ :: (text ++ κ :: after) ∧ s' = ⟨some κ, after⟩ := by
  rcases s with ⟨b, _ | ⟨κ, cs⟩⟩
  · cases h
  · simp only [quoted?] at h
    split at h
    · next hκ =>
        split at h
        · next c after hdrop =>
            split at h
            · next hc =>
                obtain ⟨rfl, rfl⟩ := Prod.mk.inj (Option.some.inj h)
                refine ⟨κ, after, hκ, ?_, rfl⟩
                rw [beq_iff_eq.mp hc] at hdrop
                rw [← hdrop, List.takeWhile_append_dropWhile]
            · cases h
        · cases h
    · cases h

theorem quotable_of_quoted? {s s' : Spot} {text : List Char} (h : quoted? s = some (text, s')) :
    ∀ κ ∈ s.rest.head?, Quotable κ text := by
  rcases s with ⟨b, _ | ⟨κ, cs⟩⟩
  · cases h
  · simp only [quoted?] at h
    split at h
    · split at h
      · split at h
        · obtain ⟨rfl, -⟩ := Prod.mk.inj (Option.some.inj h)
          intro κ' hκ' c hc
          obtain rfl := Option.some.inj hκ'
          have hinside := List.all_eq_true.mp List.all_takeWhile c hc
          simpa using hinside
        · cases h
      · cases h
    · cases h

theorem quoted?_of_not_isQuote {s : Spot} (h : ∀ c ∈ s.rest.head?, isQuote c = false) :
    quoted? s = none := by
  rcases s with ⟨b, _ | ⟨c, cs⟩⟩
  · rfl
  · simp [quoted?, h c rfl]

theorem findSome?_quoted?_extend {κ : Char} (rest : List Char) {found : List Spot}
    (hfound : ∀ s ∈ found, ∀ c ∈ s.rest, isQuote c = false) :
    (found.map (·.extend (κ :: rest))).findSome? quoted? =
      if found.any (·.rest.isEmpty) then quoted? ⟨none, κ :: rest⟩ else none := by
  induction found with
  | nil => rfl
  | cons s ss ih =>
      rw [List.forall_mem_cons] at hfound
      rw [List.map_cons, List.findSome?_cons, ih hfound.2, List.any_cons]
      rcases s with ⟨b, _ | ⟨c, cs⟩⟩
      · have hsame : quoted? (Spot.extend ⟨b, []⟩ (κ :: rest)) = quoted? ⟨none, κ :: rest⟩ := rfl
        rw [hsame]
        cases hread : quoted? ⟨none, κ :: rest⟩ <;> simp
      · have hnone : quoted? (Spot.extend ⟨b, c :: cs⟩ (κ :: rest)) = none :=
          quoted?_of_not_isQuote fun d hd => by
            obtain rfl := Option.some.inj hd
            exact hfound.1 c (List.mem_cons_self ..)
        rw [hnone]
        simp

/-- A head that stops finds nothing but what stands in the next quotes, and it finds that if it can
match all that stands before them. -/
theorem thenQuoted_of_stops {p : Pattern} (hp : p.Stops) {cs : List Char} (hcs : Enclosed cs)
    (hplain : ∀ c ∈ cs, isQuote c = false) {κ : Char} (hκ : isQuote κ = true) (b : Option Char)
    (rest : List Char) :
    thenQuoted p ⟨b, cs ++ κ :: rest⟩ =
      if (p ⟨b, cs⟩).any (·.rest.isEmpty) then quoted? ⟨none, κ :: rest⟩ else none :=
  (congrArg (List.findSome? quoted?) (hp.ahead ⟨b, cs⟩ κ rest hcs hκ)).trans <|
    findSome?_quoted?_extend rest fun s hs c hc => hplain c ((hp.forward _ s hs).subset hc)

end ScriptSandbox.Scan
