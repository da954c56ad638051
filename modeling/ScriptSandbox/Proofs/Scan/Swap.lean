import ScriptSandbox.Proofs.Scan.Matches

/-!
# Codes that differ in a literal

Two codes that differ in the contents of one literal are searched side by side. Spots at the same
place before the literal, or at the same place behind it, are twins; a pattern respects twins if it
takes them to twins, however it looks across the literal. A search for what a respecting pattern
finds then reports the same places before the literal and corresponding places behind it
(`findAll_alongside`), if nothing begins within.
-/

namespace ScriptSandbox.Scan

open Pattern

/-- Whether `import.meta` is named in a text. -/
def Mentions (text : List Char) : Prop :=
  ∃ front back, text = front ++ back ∧ MetaAt (past none front) back

/-- Contents of a literal that no search and no count of parentheses takes for code. -/
structure Inert (text : List Char) : Prop where
  balanced : Balanced text
  no_equals : '=' ∉ text
  no_break : '\n' ∉ text
  no_meta : ¬ Mentions text

/-- The contents of a literal before and after they are replaced. -/
structure Swap where
  quote : Char
  old : List Char
  new : List Char
  isQuote : Scan.isQuote quote = true
  old_inside : Inside quote old
  new_inside : Inside quote new
  old_inert : Inert old
  new_inert : Inert new

namespace Swap

variable (w : Swap) {back : List Char}

def oldText : List Char := w.quote :: (w.old ++ [w.quote])

def newText : List Char := w.quote :: (w.new ++ [w.quote])

theorem quote_ne {c : Char} (hc : Scan.isQuote c = false) : w.quote ≠ c := by
  intro h
  have hquote := w.isQuote
  rw [h, hc] at hquote
  cases hquote

/-! ## Twins -/

/-- The same place in the code with the old literal and in that with the new one. -/
inductive Twin (back : List Char) : Spot → Spot → Prop
  | ahead (b : Option Char) (front : List Char) :
      Twin back ⟨b, front ++ (w.oldText ++ back)⟩ ⟨b, front ++ (w.newText ++ back)⟩
  | behind {s : Spot} (h : s.rest <:+ back) : Twin back s s

/-- A pattern takes twins to twins. -/
structure Respects (back : List Char) (p : Pattern) : Prop where
  forward : Forward p
  ahead : ∀ b front, List.Forall₂ (w.Twin back) (p ⟨b, front ++ (w.oldText ++ back)⟩)
    (p ⟨b, front ++ (w.newText ++ back)⟩)

variable {w} {p q : Pattern} {pr : Char → Bool} {s s' : Spot}

theorem Respects.twins (hp : w.Respects back p) (h : w.Twin back s s') :
    List.Forall₂ (w.Twin back) (p s) (p s') := by
  cases h with
  | ahead b front => exact hp.ahead b front
  | behind h =>
      rw [List.forall₂_same]
      intro t ht
      exact .behind ((hp.forward s t ht).trans h)

theorem Respects.seq (hp : w.Respects back p) (hq : w.Respects back q) :
    w.Respects back (seq p q) := by
  refine ⟨hp.forward.seq hq.forward, fun b front => ?_⟩
  exact List.rel_flatMap (hp.ahead b front) fun s s' h => hq.twins h

theorem Respects.alt (hp : w.Respects back p) (hq : w.Respects back q) :
    w.Respects back (alt p q) := by
  refine ⟨hp.forward.alt hq.forward, fun b front => ?_⟩
  exact List.rel_append (hp.ahead b front) (hq.ahead b front)

theorem respects_id : w.Respects back fun s => [s] :=
  ⟨forward_id, fun b front => .cons (.ahead b front) .nil⟩

theorem Respects.opt (hp : w.Respects back p) : w.Respects back (opt p) := hp.alt respects_id

theorem respects_all {ps : List Pattern} (h : ∀ p ∈ ps, w.Respects back p) :
    w.Respects back (all ps) := by
  induction ps with
  | nil => exact respects_id
  | cons p ps ih =>
      rw [List.forall_mem_cons] at h
      exact h.1.seq (ih h.2)

theorem respects_one (h : pr w.quote = false) : w.Respects back (one pr) := by
  refine ⟨forward_one pr, fun b front => ?_⟩
  cases front with
  | nil => simp [one, oldText, newText, h]
  | cons c cs =>
      by_cases hc : pr c = true
      · simpa [one, hc] using Twin.ahead (some c) cs
      · simp [one, hc]

theorem respects_word {text : String} (h : text.toList.any Scan.isQuote = false) :
    w.Respects back (word text) := by
  refine respects_all (List.forall_mem_map.mpr fun c hc => respects_one ?_)
  have hplain : Scan.isQuote c = false := Bool.eq_false_iff.mpr (List.any_eq_false.mp h c hc)
  exact beq_eq_false_iff_ne.mpr (w.quote_ne hplain)

/-- A run that a quote ends stays on its side of the literal. -/
theorem run_ahead (h : pr w.quote = false) (b : Option Char) (front rest : List Char) :
    run pr ⟨b, front ++ (w.quote :: rest)⟩ = (run pr ⟨b, front⟩).extend (w.quote :: rest) :=
  run_go_extend (.inr fun c hc => by rw [← Option.some.inj hc]; exact h) b

theorem respects_many (h : pr w.quote = false) : w.Respects back (many pr) := by
  refine ⟨forward_many pr, fun b front => .cons ?_ .nil⟩
  rw [oldText, newText, List.cons_append, List.cons_append, run_ahead h, run_ahead h]
  exact .ahead (run pr ⟨b, front⟩).before (run pr ⟨b, front⟩).rest

theorem respects_boundary : w.Respects back boundary := by
  refine ⟨forward_boundary, fun b front => ?_⟩
  have hsame : atBoundary ⟨b, front ++ (w.oldText ++ back)⟩ =
      atBoundary ⟨b, front ++ (w.newText ++ back)⟩ := by
    cases front <;> rfl
  rw [boundary, boundary, hsame]
  split
  · exact .cons (.ahead b front) .nil
  · exact .nil

theorem respects_lineStart : w.Respects back lineStart := by
  refine ⟨fun s s' hs' => ?_, fun b front => ?_⟩
  · rw [(mem_lineStart.mp hs').1]
  · cases b with
    | none => exact .cons (.ahead none front) .nil
    | some c =>
        by_cases hc : c = '\n'
        · subst hc
          exact .cons (.ahead (some '\n') front) .nil
        · simp [lineStart, hc]

/-! ## Runs across a literal -/

theorem run_go_through {cs rest : List Char} (hcs : ∀ c ∈ cs, pr c = true) (b : Option Char) :
    run.go pr b (cs ++ rest) = run.go pr (past b cs) rest := by
  induction cs generalizing b with
  | nil => rfl
  | cons c cs ih =>
      rw [List.forall_mem_cons] at hcs
      rw [List.cons_append, run.go, if_pos hcs.1, ih hcs.2, past_cons]

/-- A run that takes in both literals whole comes to the same place behind them. -/
theorem run_across (hold : ∀ c ∈ w.oldText, pr c = true) (hnew : ∀ c ∈ w.newText, pr c = true)
    (b : Option Char) (front : List Char) :
    w.Twin back (run pr ⟨b, front ++ (w.oldText ++ back)⟩)
      (run pr ⟨b, front ++ (w.newText ++ back)⟩) := by
  by_cases hfront : ∃ c ∈ front, pr c = false
  · have hextend (more : List Char) : run pr ⟨b, front ++ more⟩ = (run pr ⟨b, front⟩).extend more :=
      run_go_extend (.inl hfront) b
    rw [hextend, hextend]
    exact .ahead (run pr ⟨b, front⟩).before (run pr ⟨b, front⟩).rest
  · have hall : ∀ c ∈ front, pr c = true := by
      intro c hc
      by_contra hfalse
      exact hfront ⟨c, hc, Bool.eq_false_iff.mpr hfalse⟩
    have hrun {text : List Char} (htext : ∀ c ∈ text, pr c = true)
        (hend : past none text = some w.quote) :
        run pr ⟨b, front ++ (text ++ back)⟩ = run pr ⟨some w.quote, back⟩ := by
      have hne : text ≠ [] := by
        rintro rfl
        cases hend
      rw [past_eq_getLast? hne] at hend
      rw [run, run, run_go_through hall, run_go_through htext, past_eq_getLast? hne, hend]
    have hlast (text : List Char) :
        past none (w.quote :: (text ++ [w.quote])) = some w.quote := by
      rw [past_cons, past_append]
      rfl
    rw [hrun hold (hlast w.old), hrun hnew (hlast w.new)]
    exact .behind (run_go_suffix pr _ back)

theorem not_equals_of_mem {text : List Char} (h : Inert text) :
    ∀ c ∈ w.quote :: (text ++ [w.quote]), (c != '=' && c != '\n') = true := by
  have hquote : (w.quote != '=' && w.quote != '\n') = true := by
    simp [w.quote_ne (c := '=') (by decide), w.quote_ne (c := '\n') (by decide)]
  intro c hc
  rcases List.mem_cons.mp hc with rfl | hc
  · exact hquote
  rcases List.mem_append.mp hc with hc | hc
  · have hequals : c ≠ '=' := by
      rintro rfl
      exact h.no_equals hc
    have hbreak : c ≠ '\n' := by
      rintro rfl
      exact h.no_break hc
    simp [hequals, hbreak]
  · rw [List.mem_singleton.mp hc]
    exact hquote

theorem isBlank_quote : Text.isBlank w.quote = false := isBlank_of_isQuote w.isQuote

/-- A place before the literal is told from the same twin on both sides. -/
theorem Twin.length_ne (h : w.Twin back s s') (front : List Char) :
    ((front ++ (w.oldText ++ back)).length != s.rest.length) =
      ((front ++ (w.newText ++ back)).length != s'.rest.length) := by
  rw [Bool.eq_iff_iff, bne_iff_ne, bne_iff_ne]
  cases h with
  | ahead b front' => simp only [List.length_append, ne_eq, Nat.add_right_cancel_iff]
  | behind h =>
      have hle := h.length_le
      simp only [oldText, newText, List.length_append, List.length_cons]
      omega

theorem respects_declared : w.Respects back declared := by
  refine ⟨?_, fun b front => ?_⟩
  · intro s s' hs'
    obtain ⟨gap, names, hrest, -⟩ := mem_declared hs'
    exact ⟨gap ++ (names ++ ['=']), by rw [hrest]; simp⟩
  · obtain ⟨⟨cb, core⟩, hcore⟩ : ∃ core, core = run Text.isBlank ⟨b, front⟩ := ⟨_, rfl⟩
    have hold : run Text.isBlank ⟨b, front ++ (w.oldText ++ back)⟩ =
        ⟨cb, core ++ (w.oldText ++ back)⟩ := by
      rw [oldText, List.cons_append, run_ahead isBlank_quote, ← hcore]
      rfl
    have hnew : run Text.isBlank ⟨b, front ++ (w.newText ++ back)⟩ =
        ⟨cb, core ++ (w.newText ++ back)⟩ := by
      rw [newText, List.cons_append, run_ahead isBlank_quote, ← hcore]
      rfl
    have hstop : w.Twin back _ _ :=
      run_across (not_equals_of_mem w.old_inert) (not_equals_of_mem w.new_inert) cb core
    have hnamed := hstop.length_ne core
    have hblanks (more : List Char) :
        (front ++ more).length - (core ++ more).length = front.length - core.length := by
      rw [List.length_append, List.length_append, Nat.add_sub_add_right]
    have hsign : w.Respects back (one (· == '=')) :=
      respects_one (beq_eq_false_iff_ne.mpr (w.quote_ne (by decide)))
    simp only [declared, hold, hnew, hblanks, hnamed]
    split
    · exact hsign.twins hstop
    · exact .nil

theorem respects_indent : w.Respects back indent := by
  refine respects_many ?_
  simp [w.quote_ne (c := ' ') (by decide), w.quote_ne (c := '\t') (by decide)]

theorem respects_blanks : w.Respects back blanks := respects_many isBlank_quote

theorem respects_awaitStatement : w.Respects back awaitStatement := by
  have hkeyword : w.Respects back (alt (word "const") (alt (word "let") (word "var"))) :=
    (respects_word rfl).alt ((respects_word rfl).alt (respects_word rfl))
  have hdeclaration : w.Respects back
      (all [alt (word "const") (alt (word "let") (word "var")), declared, blanks]) :=
    respects_all (by simp [hkeyword, respects_declared, respects_blanks])
  have hawait : w.Respects back (word "await") := respects_word rfl
  exact respects_all (by
    simp [respects_lineStart, respects_indent, hdeclaration.opt, hawait, respects_boundary])

/-! ## Patterns that look into a literal -/

/-- Whether a pattern matches is the same for twins. -/
def Tells (w : Swap) (back : List Char) (p : Pattern) : Prop :=
  ∀ s s', w.Twin back s s' → (p s = [] ↔ p s' = [])

theorem Respects.tells (hp : w.Respects back p) : w.Tells back p := by
  intro s s' h
  have htwins := hp.twins h
  constructor
  · intro hnil
    rw [hnil] at htwins
    exact List.forall₂_nil_left_iff.mp htwins
  · intro hnil
    rw [hnil] at htwins
    exact List.forall₂_nil_right_iff.mp htwins

theorem Respects.tells_seq (hp : w.Respects back p) (hq : w.Tells back q) :
    w.Tells back (Pattern.seq p q) := by
  intro s s' h
  have htwins := hp.twins h
  have hnil (s : Spot) : Pattern.seq p q s = [] ↔ ∀ t ∈ p s, q t = [] := List.flatMap_eq_nil_iff
  rw [hnil, hnil]
  generalize p s = found, p s' = found' at htwins
  induction htwins with
  | nil => simp
  | cons htwin _ ih =>
      rw [List.forall_mem_cons, List.forall_mem_cons]
      exact and_congr (hq _ _ htwin) ih

theorem Tells.alt (hp : w.Tells back p) (hq : w.Tells back q) : w.Tells back (Pattern.alt p q) := by
  intro s s' h
  rw [Pattern.alt, Pattern.alt, List.append_eq_nil_iff, List.append_eq_nil_iff, hp s s' h,
    hq s s' h]

theorem Tells.all_one (hp : w.Tells back p) : w.Tells back (all [p]) := by
  have hsame : all [p] = p := funext fun s => List.flatMap_singleton' _
  rw [hsame]
  exact hp

theorem tells_one : w.Tells back (one pr) := by
  intro s s' h
  cases h with
  | behind h => exact Iff.rfl
  | ahead b front =>
      cases front with
      | nil => simp [one, oldText, newText]
      | cons c cs => simp [one]

theorem tells_moduleOnly : w.Tells back moduleOnly := by
  have himport : w.Respects back (word "import") := respects_word rfl
  have hstatic : w.Tells back (all [word "import", boundary, blanks, one afterImport]) :=
    himport.tells_seq (respects_boundary.tells_seq (respects_blanks.tells_seq tells_one.all_one))
  have hexport : w.Respects back (all [word "export", boundary]) :=
    (respects_word rfl).seq (respects_all (by simp [respects_boundary]))
  have hdeclaration : w.Tells back declaration := hstatic.alt hexport.tells
  have hmeta : w.Respects back
      (all [boundary, word "import", blanks, word ".", blanks, word "meta", boundary]) := by
    have hdot : w.Respects back (word ".") := respects_word rfl
    have hend : w.Respects back (word "meta") := respects_word rfl
    exact respects_all (by simp [respects_boundary, himport, respects_blanks, hdot, hend])
  exact (respects_lineStart.tells_seq (respects_indent.tells_seq hdeclaration.all_one)).alt hmeta.tells

/-! ## Within a literal -/

theorem not_start_of_mem {κ c : Char} (h : Scan.isQuote κ = true) (hc : κ = c) :
    ¬ (inIndent c = true ∨ Text.isWord c = true) := by
  subst hc
  rw [isWord_of_isQuote h]
  simp only [Scan.isQuote, Bool.or_eq_true, beq_iff_eq] at h
  rcases h with (rfl | rfl) | rfl <;> decide

/-- A place within a literal follows its opening quote, and its closing quote is still ahead. -/
theorem place_within {κ : Char} {text front tail : List Char}
    (h : κ :: (text ++ [κ]) = front ++ tail) (htail : tail ≠ []) :
    front = [] ∨ ∃ front' tail', front = κ :: front' ∧ tail = tail' ++ [κ] ∧ text = front' ++ tail' := by
  cases front with
  | nil => exact .inl rfl
  | cons c front' =>
      obtain ⟨rfl, hrest⟩ := List.cons.inj h
      obtain ⟨tail', d, rfl⟩ := (List.eq_nil_or_concat tail).resolve_left htail
      have hrest : text ++ [κ] = front' ++ tail' ++ [d] := by simpa using hrest
      obtain ⟨rfl, hd⟩ := List.append_inj' hrest rfl
      rw [← List.singleton_inj.mp hd, List.concat_eq_append]
      exact .inr ⟨front', tail', rfl, rfl, rfl⟩

theorem not_lineStart_within {κ : Char} {text front tail : List Char} (hκ : Scan.isQuote κ = true)
    (h : Inert text) (htext : text = front ++ tail) (b : Option Char) :
    ¬ ∀ c, past b (κ :: front) = some c → c = '\n' := by
  intro hstart
  rw [past_eq_getLast? (List.cons_ne_nil κ front)] at hstart
  have hlast := hstart _ (List.getLast?_eq_some_getLast (List.cons_ne_nil κ front))
  have hmem := List.getLast_mem (List.cons_ne_nil κ front)
  rw [hlast] at hmem
  rcases List.mem_cons.mp hmem with rfl | hmem
  · cases hκ
  · refine h.no_break ?_
    rw [htext]
    exact List.mem_append_left _ hmem

/-- Neither search finds anything that begins in a literal. -/
theorem nothing_within {κ : Char} {text front tail : List Char} (hκ : Scan.isQuote κ = true)
    (hinert : Inert text) (b : Option Char) (rest : List Char)
    (h : κ :: (text ++ [κ]) = front ++ tail) (htail : tail ≠ []) :
    moduleOnly ⟨past b front, tail ++ rest⟩ = [] ∧
      awaiting ⟨past b front, tail ++ rest⟩ = none := by
  have hno : (∀ s, s ∉ moduleOnly ⟨past b front, tail ++ rest⟩) ∧
      ∀ s, s ∉ awaitStatement ⟨past b front, tail ++ rest⟩ := by
    rcases place_within h htail with rfl | ⟨front, tail, rfl, rfl, htext⟩
    · rw [List.nil_append] at h
      subst h
      constructor
      · intro s hs
        exact not_start_of_mem hκ rfl (moduleOnly_head? hs κ rfl)
      · intro s hs
        exact not_start_of_mem hκ rfl (awaitStatement_head? hs κ rfl)
    · have hbreak := not_lineStart_within hκ hinert htext b
      constructor
      · intro s hs
        rcases moduleOnly_cases hs with ⟨hstart, -⟩ | hmeta
        · exact hbreak hstart
        · rw [List.append_assoc] at hmeta
          obtain ⟨hb, hcut⟩ := hmeta.within hκ
          refine hinert.no_meta ⟨front, tail, htext, ?_, hcut⟩
          cases front with
          | nil => rfl
          | cons c cs => exact hb
      · intro s hs
        exact hbreak (mem_awaitStatement hs).1
  refine ⟨List.eq_nil_iff_forall_not_mem.mpr hno.1, Option.eq_none_iff_forall_ne_some.mpr ?_⟩
  intro found hfound
  exact hno.2 found.2 (mem_of_awaiting hfound)

/-! ## Searches -/

theorem past_oldText (b : Option Char) : past b w.oldText = some w.quote := by
  rw [oldText, past_cons, past_append]
  rfl

theorem past_newText (b : Option Char) : past b w.newText = some w.quote := by
  rw [newText, past_cons, past_append]
  rfl

theorem matchesSomewhere_eq (b : Option Char) (front : List Char) :
    matchesSomewhere moduleOnly b (front ++ (w.oldText ++ back)) =
      matchesSomewhere moduleOnly b (front ++ (w.newText ++ back)) := by
  induction front generalizing b with
  | nil =>
      rw [List.nil_append, List.nil_append, matchesSomewhere_through, matchesSomewhere_through,
        past_oldText, past_newText]
      · exact fun front tail h hne => (nothing_within w.isQuote w.new_inert b back h hne).1
      · exact fun front tail h hne => (nothing_within w.isQuote w.old_inert b back h hne).1
  | cons c cs ih =>
      have htwin : w.Twin back _ _ := .ahead b (c :: cs)
      have hhere := tells_moduleOnly _ _ htwin
      rw [← List.isEmpty_iff, ← List.isEmpty_iff, ← Bool.eq_iff_iff] at hhere
      rw [List.cons_append, List.cons_append] at hhere ⊢
      rw [matchesSomewhere, matchesSomewhere, hhere]
      simp only [ih]

/-- Two places that correspond, where the literal begins at place `n`. -/
def Alongside (w : Swap) (n place place' : Nat) : Prop :=
  (place' = place ∧ place ≤ n) ∨
    ∃ k, place = n + w.oldText.length + k ∧ place' = n + w.newText.length + k

/-- A search that skips is behind on both sides or on neither. -/
theorem Alongside.pred {n skip skip' : Nat} (h : w.Alongside (n + 1) skip skip') :
    (skip = 0 ∧ skip' = 0) ∨
      ∃ m m', skip = m + 1 ∧ skip' = m' + 1 ∧ w.Alongside n m m' := by
  rcases h with ⟨rfl, hle⟩ | ⟨k, rfl, rfl⟩
  · cases skip' with
    | zero => exact .inl ⟨rfl, rfl⟩
    | succ m => exact .inr ⟨m, m, rfl, rfl, .inl ⟨rfl, by omega⟩⟩
  · exact .inr ⟨n + w.oldText.length + k, n + w.newText.length + k, by omega, by omega,
      .inr ⟨k, rfl, rfl⟩⟩

theorem awaiting_twins (h : w.Twin back s s') :
    (awaiting s = none ∧ awaiting s' = none) ∨
      ∃ e e', awaiting s = some ((), e) ∧ awaiting s' = some ((), e') ∧ w.Twin back e e' := by
  have hends := respects_awaitStatement.twins h
  rw [awaiting, awaiting]
  generalize awaitStatement s = ends, awaitStatement s' = ends' at hends
  cases hends with
  | nil => exact .inl ⟨rfl, rfl⟩
  | cons htwin _ => exact .inr ⟨_, _, rfl, rfl, htwin⟩

/-- What is left to skip after a match. -/
theorem Twin.alongside {e e' : Spot} (h : w.Twin back e e') (front : List Char) :
    w.Alongside front.length ((front ++ (w.oldText ++ back)).length - e.rest.length)
      ((front ++ (w.newText ++ back)).length - e'.rest.length) := by
  cases h with
  | ahead b front' =>
      simp only [List.length_append, Nat.add_sub_add_right]
      exact .inl ⟨rfl, Nat.sub_le _ _⟩
  | behind h =>
      have hle := h.length_le
      refine .inr ⟨back.length - e.rest.length, ?_, ?_⟩
      · simp only [List.length_append]
        omega
      · simp only [List.length_append]
        omega

/-- A search that has come to the literal goes on behind it. -/
theorem findAll_across {skip skip' : Nat} (back : List Char) (b : Option Char) (offset : Nat)
    (hskip : w.Alongside 0 skip skip') :
    ∃ k, findAll awaiting b offset skip (w.oldText ++ back) =
        findAll awaiting (some w.quote) (offset + w.oldText.length) k back ∧
      findAll awaiting b offset skip' (w.newText ++ back) =
        findAll awaiting (some w.quote) (offset + w.newText.length) k back := by
  rcases hskip with ⟨rfl, hzero⟩ | ⟨k, rfl, rfl⟩
  · obtain rfl := Nat.le_zero.mp hzero
    have hold : Finds awaiting back b offset w.oldText [] :=
      finds_none fun _ _ h hne => (nothing_within w.isQuote w.old_inert b back h hne).2
    have hnew : Finds awaiting back b offset w.newText [] :=
      finds_none fun _ _ h hne => (nothing_within w.isQuote w.new_inert b back h hne).2
    refine ⟨0, ?_, ?_⟩
    · rw [findAll_of_finds hold, past_oldText, List.nil_append]
    · rw [findAll_of_finds hnew, past_newText, List.nil_append]
  · refine ⟨k, ?_, ?_⟩
    · rw [Nat.zero_add, findAll_past, past_oldText]
    · rw [Nat.zero_add, findAll_past, past_newText]

/-- A search finds the same statements that await before the literal and corresponding ones behind
it; `skip` and `skip'` are what is left of a match found before. -/
theorem findAll_alongside {skip skip' : Nat} (back front : List Char) (b : Option Char) (offset : Nat)
    (hskip : w.Alongside front.length skip skip') :
    List.Forall₂ (fun e e' => w.Alongside (offset + front.length) e.1 e'.1)
      (findAll awaiting b offset skip (front ++ (w.oldText ++ back)))
      (findAll awaiting b offset skip' (front ++ (w.newText ++ back))) := by
  induction front generalizing b offset skip skip' with
  | nil =>
      obtain ⟨k, hold, hnew⟩ := findAll_across back b offset hskip
      rw [List.nil_append, List.nil_append, hold, hnew, ← Nat.add_zero (offset + w.oldText.length),
        ← Nat.add_zero (offset + w.newText.length), findAll_shift, findAll_shift,
        List.forall₂_map_left_iff, List.forall₂_map_right_iff, List.forall₂_same]
      intro e _
      exact .inr ⟨e.1, rfl, rfl⟩
  | cons c cs ih =>
      have hlength : offset + (c :: cs).length = offset + 1 + cs.length := by
        rw [List.length_cons]
        omega
      rw [hlength]
      rcases hskip.pred with ⟨rfl, rfl⟩ | ⟨m, m', rfl, rfl, hlater⟩
      · have htwin : w.Twin back _ _ := .ahead b (c :: cs)
        rcases awaiting_twins htwin with
          ⟨hnone, hnone'⟩ | ⟨e, e', hsome, hsome', htwin⟩
        · rw [List.cons_append] at hnone hnone' ⊢
          rw [List.cons_append, findAll_miss hnone, findAll_miss hnone']
          exact ih (some c) (offset + 1) (.inl ⟨rfl, Nat.zero_le _⟩)
        · rw [List.cons_append] at hsome hsome' ⊢
          rw [List.cons_append, findAll_hit hsome, findAll_hit hsome']
          refine .cons (.inl ⟨rfl, ?_⟩) (ih (some c) (offset + 1) (htwin.alongside cs))
          omega
      · rw [List.cons_append, List.cons_append, findAll_skipping, findAll_skipping]
        exact ih (some c) (offset + 1) hlater

end Swap

end ScriptSandbox.Scan
