import ScriptSandbox.Proofs.Scan.Swap

/-!
# The contents of literals

Whether a source is a module is decided on a text that still holds its string literals, by searches
that take no notice of quotes and by counting parentheses backwards across them. Contents that are
inert mislead none of these: literals can be given other inert contents, as many of them as one
likes, and the decision stays what it was (`hasModuleSyntax_requoted`). Each of the conditions is
needed (`contents_decide`).
-/

namespace ScriptSandbox.Scan

/-! ## Heads across a literal -/

theorem beforeParenthesis_of_opens {passed : List Char} {e : Nat} (h : Opens e passed) (d : Nat)
    (rest : List Char) :
    beforeParenthesis (d + 1 + e) (passed ++ rest) = beforeParenthesis (d + 1) rest := by
  induction passed generalizing e with
  | nil =>
      obtain rfl := opens_nil.mp h
      rfl
  | cons c cs ih =>
      by_cases hclosing : c = ')'
      · subst hclosing
        rw [List.cons_append, beforeParenthesis, Nat.add_assoc]
        exact ih (opens_closing.mp h)
      by_cases hopening : c = '('
      · subst hopening
        obtain ⟨k, rfl, hk⟩ := opens_opening.mp h
        have hdeep : ¬ d + 1 + (k + 1) ≤ 1 := by omega
        rw [List.cons_append, beforeParenthesis, if_neg hdeep]
        exact ih hk
      · rw [List.cons_append, beforeParenthesis]
        · exact ih ((opens_other hclosing hopening).mp h)
        · exact hclosing
        · exact hopening

/-- The search for a parenthesis ends in a text, or goes on behind it at some depth. -/
theorem beforeParenthesis_append (passed : List Char) (d : Nat) :
    (∃ before, ∀ rest, beforeParenthesis (d + 1) (passed ++ rest) = some (before ++ rest)) ∨
      ∃ e, ∀ rest, beforeParenthesis (d + 1) (passed ++ rest) = beforeParenthesis (e + 1) rest := by
  induction passed generalizing d with
  | nil => exact .inr ⟨d, fun rest => rfl⟩
  | cons c cs ih =>
      by_cases hclosing : c = ')'
      · subst hclosing
        simpa [beforeParenthesis] using ih (d + 1)
      by_cases hopening : c = '('
      · subst hopening
        cases d with
        | zero => exact .inl ⟨cs, fun rest => by simp [beforeParenthesis]⟩
        | succ d => simpa [beforeParenthesis] using ih d
      · have hskip (rest : List Char) : beforeParenthesis (d + 1) (c :: cs ++ rest) =
            beforeParenthesis (d + 1) (cs ++ rest) := by
          rw [List.cons_append, beforeParenthesis]
          · exact hclosing
          · exact hopening
        simpa only [hskip] using ih d

theorem dropWhile_append_cons {p : Char → Bool} {κ : Char} (h : p κ = false) (cs rest : List Char) :
    (cs ++ κ :: rest).dropWhile p = cs.dropWhile p ++ κ :: rest := by
  induction cs with
  | nil => simp [h]
  | cons c cs ih =>
      rw [List.cons_append, List.dropWhile_cons, List.dropWhile_cons, ih]
      split <;> rfl

theorem takeWhile_append_cons {p : Char → Bool} {κ : Char} (h : p κ = false) (cs rest : List Char) :
    (cs ++ κ :: rest).takeWhile p = cs.takeWhile p := by
  induction cs with
  | nil => simp [h]
  | cons c cs ih =>
      rw [List.cons_append, List.takeWhile_cons, List.takeWhile_cons, ih]

theorem inHeadWord_of_isQuote {κ : Char} (h : isQuote κ = true) : inHeadWord κ = false := by
  simp only [isQuote, Bool.or_eq_true, beq_iff_eq] at h
  rcases h with (rfl | rfl) | rfl <;> decide

/-- What stands behind a quote matters to a head only as far as its parentheses do. -/
theorem opensFunction_congr {κ : Char} {rest rest' : List Char} (hκ : isQuote κ = true)
    (h : ∀ d, beforeParenthesis (d + 1) (κ :: rest) = beforeParenthesis (d + 1) (κ :: rest'))
    (head : List Char) : opensFunction (head ++ κ :: rest) = opensFunction (head ++ κ :: rest') := by
  have hblank : Text.isBlank κ = false := isBlank_of_isQuote hκ
  have hword : inHeadWord κ = false := inHeadWord_of_isQuote hκ
  have hmark : κ ≠ '>' ∧ κ ≠ ')' ∧ κ ≠ '=' := by
    refine ⟨?_, ?_, ?_⟩ <;> (rintro rfl; cases hκ)
  have hdrop (rest : List Char) : (head ++ κ :: rest).dropWhile Text.isBlank =
      head.dropWhile Text.isBlank ++ κ :: rest := dropWhile_append_cons hblank head rest
  -- What the decision looks at is a parenthesis, an arrow or neither, and the quote is none of them.
  by_cases hclosing : ∃ cs, head.dropWhile Text.isBlank = ')' :: cs
  · obtain ⟨cs, hcs⟩ := hclosing
    rw [opensFunction, opensFunction, hdrop, hdrop, hcs]
    simp only [List.cons_append]
    rcases beforeParenthesis_append cs 0 with ⟨before, hbefore⟩ | ⟨e, hbefore⟩
    · simp only [hbefore, dropWhile_append_cons hblank, dropWhile_append_cons hword,
        takeWhile_append_cons hword]
      cases (before.dropWhile Text.isBlank).dropWhile inHeadWord <;> rfl
    · rw [hbefore, hbefore, h e]
  by_cases harrow : ∃ cs, head.dropWhile Text.isBlank = '>' :: '=' :: cs
  · obtain ⟨cs, hcs⟩ := harrow
    have htrue (rest : List Char) : opensFunction (head ++ κ :: rest) = .ok true :=
      opensFunction_arrow (by rw [hdrop, hcs]; rfl)
    rw [htrue, htrue]
  · have hfalse (rest : List Char) : opensFunction (head ++ κ :: rest) = .ok false := by
      refine opensFunction_other (fun more heq => ?_) fun inner heq => ?_
      · rw [hdrop] at heq
        rcases hcs : head.dropWhile Text.isBlank with _ | ⟨c, _ | ⟨d, cs⟩⟩
        · rw [hcs] at heq
          exact hmark.1 (List.cons.inj heq).1
        · rw [hcs] at heq
          exact hmark.2.2 (List.cons.inj (List.cons.inj heq).2).1
        · rw [hcs] at heq
          obtain ⟨rfl, hnext⟩ := List.cons.inj heq
          obtain ⟨rfl, -⟩ := List.cons.inj hnext
          exact harrow ⟨cs, hcs⟩
      · rw [hdrop] at heq
        cases hcs : head.dropWhile Text.isBlank with
        | nil =>
            rw [hcs] at heq
            exact hmark.2.1 (List.cons.inj heq).1
        | cons c cs =>
            rw [hcs] at heq
            obtain ⟨rfl, -⟩ := List.cons.inj heq
            exact hclosing ⟨cs, hcs⟩
    rw [hfalse, hfalse]

/-! ## The walk across a literal -/

theorem foldlM_step_inside {κ : Char} {text : List Char} (h : Inside κ text) (blocks : List Bool)
    (passed : List Char) :
    text.foldlM Nesting.step ⟨.inside κ, blocks, passed⟩ =
      .ok ⟨.inside κ, blocks, text.reverse ++ passed⟩ := by
  induction h generalizing passed with
  | nil => rfl
  | @plain c cs hquote hslash hline _ ih =>
      have hends := endsQuote_eq_false_iff.mpr ⟨hquote, hline⟩
      have hstep : Nesting.step ⟨.inside κ, blocks, passed⟩ c =
          .ok ⟨.inside κ, blocks, c :: passed⟩ := by
        simp [Nesting.step, hslash, hends]
      rw [List.foldlM_cons, hstep]
      exact (ih (c :: passed)).trans (by simp)
  | @escape c cs _ ih => exact (ih (c :: '\\' :: passed)).trans (by simp)

theorem foldlM_step_literal {κ : Char} {text : List Char} (hκ : isQuote κ = true)
    (h : Inside κ text) (blocks : List Bool) (passed : List Char) :
    (κ :: (text ++ [κ])).foldlM Nesting.step ⟨.outside, blocks, passed⟩ =
      .ok ⟨.outside, blocks, (κ :: (text ++ [κ])).reverse ++ passed⟩ := by
  have hslash : κ ≠ '\\' := by
    rintro rfl
    cases hκ
  have hopen : Nesting.step ⟨.outside, blocks, passed⟩ κ =
      .ok ⟨.inside κ, blocks, κ :: passed⟩ := by
    simp [Nesting.step, hκ]
  have hclose (passed : List Char) : Nesting.step ⟨.inside κ, blocks, passed⟩ κ =
      .ok ⟨.outside, blocks, κ :: passed⟩ := by
    simp [Nesting.step, hslash, endsQuote]
  rw [List.foldlM_cons, hopen]
  change (text ++ [κ]).foldlM Nesting.step ⟨.inside κ, blocks, κ :: passed⟩ = _
  rw [List.foldlM_append, foldlM_step_inside h]
  change [κ].foldlM Nesting.step ⟨.inside κ, blocks, text.reverse ++ κ :: passed⟩ = _
  rw [List.foldlM_cons, hclose]
  simp [pure, Except.pure, bind, Except.bind]

theorem quoteAfter_literal {κ : Char} {text code : List Char} (hκ : isQuote κ = true)
    (h : Inside κ text) (hcode : quoteAfter code = .outside) :
    quoteAfter (code ++ κ :: (text ++ [κ])) = .outside := by
  have hwalk := foldlM_step_literal hκ h [] []
  have hsame : quoteAfter (code ++ κ :: (text ++ [κ])) = quoteAfter (κ :: (text ++ [κ])) := by
    rw [quoteAfter, List.foldl_append, ← quoteAfter, hcode]
    rfl
  rw [hsame]
  rcases foldlM_step_cases (κ :: (text ++ [κ])) with ⟨c, herror, -⟩ | ⟨blocks, hok, -⟩
  · rw [herror] at hwalk
    cases hwalk
  · rw [hok] at hwalk
    exact congrArg Nesting.quote (Except.ok.inj hwalk)

namespace Swap

variable {w : Swap} {front back : List Char}

/-- From behind, the two literals are passed over alike. -/
theorem beforeParenthesis_eq (d : Nat) (rest : List Char) :
    beforeParenthesis (d + 1) (w.oldText.reverse ++ rest) =
      beforeParenthesis (d + 1) (w.newText.reverse ++ rest) := by
  have hquote (d : Nat) (rest : List Char) :
      beforeParenthesis (d + 1) (w.quote :: rest) = beforeParenthesis (d + 1) rest := by
    rw [beforeParenthesis]
    · exact w.quote_ne (by decide)
    · exact w.quote_ne (by decide)
  have hpass {text : List Char} (h : Inert text) :
      beforeParenthesis (d + 1) ((w.quote :: (text ++ [w.quote])).reverse ++ rest) =
        beforeParenthesis (d + 1) rest := by
    have hopens := (balanced_iff_opens_reverse text).mp h.balanced
    have hinner := beforeParenthesis_of_opens hopens d (w.quote :: rest)
    rw [Nat.add_zero, hquote] at hinner
    simpa [hquote] using hinner
  rw [oldText, newText, hpass w.old_inert, hpass w.new_inert]

theorem opensFunction_eq (head rest : List Char) :
    opensFunction (head ++ (w.oldText.reverse ++ rest)) =
      opensFunction (head ++ (w.newText.reverse ++ rest)) := by
  have hsplit (text : List Char) : (w.quote :: (text ++ [w.quote])).reverse ++ rest =
      w.quote :: (text.reverse ++ w.quote :: rest) := by simp
  have hbefore := fun d => beforeParenthesis_eq (w := w) d rest
  simp only [oldText, newText, hsplit] at hbefore ⊢
  exact opensFunction_congr w.isQuote hbefore head

/-- What has been passed matters to the walk only at a brace. -/
theorem step_passed {passed passed' : List Char} (h : opensFunction passed = opensFunction passed')
    (quote : QuoteState) (blocks : List Bool) (c : Char) :
    Nesting.step ⟨quote, blocks, passed'⟩ c =
      (Nesting.step ⟨quote, blocks, passed⟩ c).map fun n => { n with passed := c :: passed' } := by
  cases quote with
  | inside q => rfl
  | escaped q => rfl
  | outside =>
      simp only [Nesting.step, h]
      split
      · rfl
      split
      · cases opensFunction passed' <;> rfl
      split <;> rfl

theorem foldlM_step_eq (rest head : List Char) (quote : QuoteState) (blocks : List Bool) :
    (back.foldlM Nesting.step ⟨quote, blocks, head ++ (w.newText.reverse ++ rest)⟩).map (·.blocks) =
      (back.foldlM Nesting.step ⟨quote, blocks, head ++ (w.oldText.reverse ++ rest)⟩).map
        (·.blocks) := by
  induction back generalizing head quote blocks with
  | nil => rfl
  | cons c cs ih =>
      have hstep := step_passed (opensFunction_eq (w := w) head rest) quote blocks c
      rw [List.foldlM_cons, List.foldlM_cons, hstep]
      rcases Nesting.step_cases ⟨quote, blocks, head ++ (w.oldText.reverse ++ rest)⟩ c with
        ⟨e, herror, -⟩ | ⟨blocks', hok, -⟩
      · rw [herror]
        rfl
      · rw [hok]
        exact ih (c :: head) (quote.next c) blocks'

theorem insideFunction_eq (hfront : quoteAfter front = .outside) :
    insideFunction (front ++ (w.oldText ++ back)) = insideFunction (front ++ (w.newText ++ back)) := by
  have hmap (r : Except SplitCharacter Nesting) :
      r.map (fun n => n.blocks.contains true) = (r.map (·.blocks)).map (·.contains true) := by
    cases r <;> rfl
  rw [insideFunction, insideFunction, hmap, hmap]
  congr 1
  rw [List.foldlM_append, List.foldlM_append]
  rcases foldlM_step_cases front with ⟨c, herror, -⟩ | ⟨blocks, hok, -⟩
  · rw [herror]
    rfl
  · rw [hok, hfront]
    have hold := foldlM_step_literal w.isQuote w.old_inside blocks front.reverse
    have hnew := foldlM_step_literal w.isQuote w.new_inside blocks front.reverse
    have hthrough (text : List Char) : (text ++ back).foldlM Nesting.step
        ⟨.outside, blocks, front.reverse⟩ =
        (text.foldlM Nesting.step ⟨.outside, blocks, front.reverse⟩ >>= fun n =>
          back.foldlM Nesting.step n) := List.foldlM_append ..
    change Except.map _ ((w.oldText ++ back).foldlM Nesting.step _) =
      Except.map _ ((w.newText ++ back).foldlM Nesting.step _)
    rw [hthrough, hthrough, oldText, newText, hold, hnew]
    exact (foldlM_step_eq (w := w) front.reverse [] .outside blocks).symm

end Swap

/-! ## The decision -/

def decision (code : List Char) : Except SplitCharacter Bool :=
  if matchesSomewhere moduleOnly none code then .ok true else anyOutside code (awaitPlaces code)

theorem hasModuleSyntax_eq_decision (source : String) :
    hasModuleSyntax source = decision (blankComments source.toList) := rfl

theorem anyOutside_congr {code code' : List Char} {places places' : List Nat}
    (h : List.Forall₂ (fun place place' =>
      insideFunction (code.take place) = insideFunction (code'.take place')) places places') :
    anyOutside code places = anyOutside code' places' := by
  induction h with
  | nil => rfl
  | cons hplace _ ih => rw [anyOutside, anyOutside, hplace, ih]

namespace Swap

variable {w : Swap} {front back : List Char}

theorem insideFunction_take {place place' : Nat} (hfront : quoteAfter front = .outside)
    (h : w.Alongside front.length place place') :
    insideFunction ((front ++ (w.oldText ++ back)).take place) =
      insideFunction ((front ++ (w.newText ++ back)).take place') := by
  rcases h with ⟨rfl, hle⟩ | ⟨k, rfl, rfl⟩
  · rw [List.take_append_of_le_length hle, List.take_append_of_le_length hle]
  · have htake (text : List Char) : (front ++ (text ++ back)).take (front.length + text.length + k) =
        front ++ (text ++ back.take k) := by
      rw [Nat.add_assoc, List.take_length_add_append, List.take_length_add_append]
    rw [htake, htake]
    exact insideFunction_eq hfront

theorem decision_eq (hfront : quoteAfter front = .outside) :
    decision (front ++ (w.oldText ++ back)) = decision (front ++ (w.newText ++ back)) := by
  have hplaces := findAll_alongside (w := w) back front none 0
    (.inl ⟨rfl, Nat.zero_le front.length⟩)
  rw [Nat.zero_add] at hplaces
  rw [decision, decision, matchesSomewhere_eq, awaitPlaces_eq, awaitPlaces_eq]
  congr 1
  refine anyOutside_congr ?_
  rw [List.forall₂_map_left_iff, List.forall₂_map_right_iff]
  exact hplaces.imp fun e e' h => insideFunction_take hfront h

end Swap

/-! ## Replacing contents -/

/-- Two sources are the same but for the contents of literals, each of which are replaced as `swap`
allows. -/
inductive Requoted (swap : Char → List Char → List Char → Prop) :
    Lexeme → List Char → List Char → Prop
  | nil (m : Lexeme) : Requoted swap m [] []
  | keep {m : Lexeme} {c : Char} {cs cs' : List Char}
      (h : Requoted swap (m.step c cs.head?).2 cs cs') : Requoted swap m (c :: cs) (c :: cs')
  | replace {κ : Char} {old new cs cs' : List Char} (hκ : isQuote κ = true)
      (hold : Inside κ old) (hnew : Inside κ new) (hswap : swap κ old new)
      (h : Requoted swap .code cs cs') :
      Requoted swap .code (κ :: (old ++ κ :: cs)) (κ :: (new ++ κ :: cs'))

variable {swap : Char → List Char → List Char → Prop} {m : Lexeme} {cs cs' : List Char}

theorem Requoted.head? (h : Requoted swap m cs cs') : cs.head? = cs'.head? := by
  cases h <;> rfl

/-- Where the lexer stands with respect to strings. -/
def Lexeme.quoteState : Lexeme → QuoteState
  | .quoted q => .inside q
  | .escaped q => .escaped q
  | _ => .outside

/-- The walk over the code follows the lexer of the source. -/
theorem Lexeme.next_step (m : Lexeme) (c : Char) (ahead : Option Char) :
    m.quoteState.next (m.step c ahead).1 = (m.step c ahead).2.quoteState := by
  cases m with
  | code =>
      rw [step]
      split
      · rfl
      split
      · rfl
      split
      · next h => simp [quoteState, QuoteState.next, h]
      · next h => simp [quoteState, QuoteState.next, h]
  | quoted q =>
      rw [step]
      split
      · next h => simp [quoteState, QuoteState.next, h]
      split
      · next h hends => simp [quoteState, QuoteState.next, h, hends]
      · next h hends => simp [quoteState, QuoteState.next, h, hends]
  | line =>
      rw [step]
      split <;> rfl
  | block =>
      rw [step]
      split
      · rfl
      · rw [blanked]
        split <;> rfl
  | escaped q => rfl
  | lineOpening => rfl
  | blockOpening => rfl
  | blockClosing => rfl

theorem quoteAfter_concat (code : List Char) (c : Char) :
    quoteAfter (code ++ [c]) = (quoteAfter code).next c := by
  rw [quoteAfter, List.foldl_append]
  rfl

/-- One literal after the other, each in a code whose earlier literals have their new contents. -/
theorem decision_requoted (h : Requoted (fun _ old new => Inert old ∧ Inert new) m cs cs')
    (code : List Char) (hcode : quoteAfter code = m.quoteState) :
    decision (code ++ blankFrom m cs) = decision (code ++ blankFrom m cs') := by
  induction h generalizing code with
  | nil m => rfl
  | @keep m c cs cs' h ih =>
      have hnext := ih (code ++ [(m.step c cs.head?).1]) (by
        rw [quoteAfter_concat, hcode, Lexeme.next_step])
      rw [List.append_assoc, List.append_assoc] at hnext
      rw [blankFrom, blankFrom, ← h.head?]
      exact hnext
  | @replace κ old new cs cs' hκ hold hnew hswap h ih =>
      let w : Swap := ⟨κ, old, new, hκ, hold, hnew, hswap.1, hswap.2⟩
      have hread {text : List Char} (htext : Inside κ text) (rest : List Char) :
          blankFrom .code (κ :: (text ++ κ :: rest)) =
            κ :: (text ++ [κ]) ++ blankFrom .code rest := by
        have hread := reads_string hκ htext rest
        simpa using hread
      have hrest := ih (code ++ w.newText) (quoteAfter_literal hκ hnew hcode)
      rw [List.append_assoc, List.append_assoc] at hrest
      rw [hread hold, hread hnew]
      exact (w.decision_eq hcode).trans hrest

/-- Literals can be given other contents, and the decision is the same, if all the contents are
inert: their parentheses match, no equals sign, no line break and no `import.meta` is in them. -/
theorem hasModuleSyntax_requoted {source source' : String}
    (h : Requoted (fun _ old new => Inert old ∧ Inert new) .code source.toList source'.toList) :
    hasModuleSyntax source = hasModuleSyntax source' := by
  rw [hasModuleSyntax_eq_decision, hasModuleSyntax_eq_decision]
  exact decision_requoted h [] rfl

/-! ## Sources with other contents -/

theorem Requoted.refl (m : Lexeme) (cs : List Char) : Requoted swap m cs cs := by
  induction cs generalizing m with
  | nil => exact .nil m
  | cons c cs ih => exact .keep (ih _)

theorem Requoted.plain {front : List Char} (hfront : ∀ c ∈ front, c ≠ '/' ∧ isQuote c = false)
    (h : Requoted swap .code cs cs') : Requoted swap .code (front ++ cs) (front ++ cs') := by
  induction front with
  | nil => exact h
  | cons c front ih =>
      rw [List.forall_mem_cons] at hfront
      refine .keep ?_
      rw [Lexeme.code_step_plain hfront.1.1 hfront.1.2]
      exact ih hfront.2

theorem Requoted.literal {κ : Char} {front old new back : List Char}
    (hfront : ∀ c ∈ front, c ≠ '/' ∧ isQuote c = false) (hκ : isQuote κ = true)
    (hold : Inside κ old) (hnew : Inside κ new) (hswap : swap κ old new) :
    Requoted swap .code (front ++ κ :: (old ++ κ :: back)) (front ++ κ :: (new ++ κ :: back)) :=
  .plain hfront (.replace hκ hold hnew hswap (.refl _ _))

theorem balanced_of_not_mem {text : List Char} (hopening : '(' ∉ text) (hclosing : ')' ∉ text) :
    Balanced text := by
  refine ⟨?_, fun tail htail => ?_⟩
  · rw [List.count_eq_zero_of_not_mem hopening, List.count_eq_zero_of_not_mem hclosing]
  · have htail : '(' ∉ tail := fun hmem => hopening (htail.subset hmem)
    rw [List.count_eq_zero_of_not_mem htail]
    exact Nat.zero_le _

theorem inert_of_forall {text : List Char}
    (h : ∀ c ∈ text, c ∉ ['(', ')', '=', '\n', '.']) : Inert text := by
  have hnot {c : Char} (hc : c ∈ ['(', ')', '=', '\n', '.']) : c ∉ text := fun hmem => h c hmem hc
  refine ⟨balanced_of_not_mem (hnot (by decide)) (hnot (by decide)), hnot (by decide),
    hnot (by decide), ?_⟩
  rintro ⟨front, back, rfl, -, gap, gap', more, rfl, -⟩
  exact hnot (c := '.') (by decide) (by simp)

/-- Contents that a literal can have in place of others: they do not end it, and neither they nor
those of a template hold a substitution. -/
structure Replaces (κ : Char) (old new : List Char) : Prop where
  old_whole : κ = '`' → ¬ ['$', '\x7b'] <:+: old
  quotable : Quotable κ new
  no_escape : '\\' ∉ new
  new_whole : ¬ ['$', '\x7b'] <:+: new

/-- Words of statements in strings, put in the place of others. -/
theorem hasModuleSyntax_of_quoted_words :
    let source := "f('import a from b');\nawait g(`;`)"
    let source' := "f('export');\nawait g(`await`)"
    Requoted (fun _ old new => Inert old ∧ Inert new) .code source.toList source'.toList ∧
      hasModuleSyntax source = hasModuleSyntax source' ∧ hasModuleSyntax source' = .ok true := by
  intro source source'
  have hcut : source.toList = "f(".toList ++ '\'' :: ("import a from b".toList ++ '\'' ::
      (");\nawait g(".toList ++ '`' :: (";".toList ++ '`' :: [')']))) := by decide +kernel
  have hcut' : source'.toList = "f(".toList ++ '\'' :: ("export".toList ++ '\'' ::
      (");\nawait g(".toList ++ '`' :: ("await".toList ++ '`' :: [')']))) := by decide +kernel
  have hrequoted : Requoted (fun _ old new => Inert old ∧ Inert new) .code source.toList
      source'.toList := by
    rw [hcut, hcut']
    have htemplate : Requoted (fun _ old new => Inert old ∧ Inert new) .code
        ('`' :: (";".toList ++ '`' :: [')'])) ('`' :: ("await".toList ++ '`' :: [')'])) :=
      .replace rfl (inside_of_plain (by simp)) (inside_of_plain (by simp))
        ⟨inert_of_forall (by simp), inert_of_forall (by simp)⟩ (.refl _ _)
    refine .plain (by simp [isQuote]) (.replace rfl (inside_of_plain (by simp))
      (inside_of_plain (by simp)) ⟨inert_of_forall (by simp), inert_of_forall (by simp)⟩
      (.plain (by simp [isQuote]) htemplate))
  exact ⟨hrequoted, hasModuleSyntax_requoted hrequoted, by decide +kernel⟩

/-- Contents of one literal that decide: `import.meta`, a line's begin, a parenthesis, an equals
sign. -/
theorem contents_decide :
    (Requoted Replaces .code "const x = 'import.meta';".toList "const x = 'imports';".toList ∧
      hasModuleSyntax "const x = 'import.meta';" = .ok true ∧
      hasModuleSyntax "const x = 'imports';" = .ok false) ∧
    (Requoted Replaces .code "x = `\nexport`".toList "x = `export`".toList ∧
      hasModuleSyntax "x = `\nexport`" = .ok true ∧ hasModuleSyntax "x = `export`" = .ok false) ∧
    (Requoted Replaces .code "if (a == '(') \x7b\nawait c\n\x7d".toList
        "if (a == ',') \x7b\nawait c\n\x7d".toList ∧
      hasModuleSyntax "if (a == '(') \x7b\nawait c\n\x7d" = .ok false ∧
      hasModuleSyntax "if (a == ',') \x7b\nawait c\n\x7d" = .ok true) ∧
    (Requoted Replaces .code "const \x7b'=': b\x7d = await c".toList
        "const \x7b'-': b\x7d = await c".toList ∧
      hasModuleSyntax "const \x7b'=': b\x7d = await c" = .ok false ∧
      hasModuleSyntax "const \x7b'-': b\x7d = await c" = .ok true) := by
  have hplain {κ : Char} (front old new back : List Char)
      (hfront : ∀ c ∈ front, c ≠ '/' ∧ isQuote c = false) (hκ : isQuote κ = true)
      (hold : ∀ c ∈ old, c ≠ κ ∧ c ≠ '\\' ∧ (κ = '`' ∨ c ≠ '\n'))
      (hnew : ∀ c ∈ new, c ≠ κ ∧ c ≠ '\\' ∧ (κ = '`' ∨ c ≠ '\n'))
      (hwhole : ¬ ['$', '\x7b'] <:+: old ∧ ¬ ['$', '\x7b'] <:+: new) :
      Requoted Replaces .code (front ++ κ :: (old ++ κ :: back))
        (front ++ κ :: (new ++ κ :: back)) := by
    refine .literal hfront hκ (inside_of_plain hold) (inside_of_plain hnew) ⟨fun _ => hwhole.1,
      fun c hc => ⟨(hnew c hc).1, (hnew c hc).2.2⟩, fun hslash => ?_, hwhole.2⟩
    exact absurd rfl (hnew _ hslash).2.1
  refine ⟨⟨?_, by decide +kernel, by decide +kernel⟩, ⟨?_, by decide +kernel, by decide +kernel⟩,
    ⟨?_, by decide +kernel, by decide +kernel⟩, ⟨?_, by decide +kernel, by decide +kernel⟩⟩
  · exact hplain (κ := '\'') "const x = ".toList "import.meta".toList "imports".toList [';']
      (by simp [isQuote]) rfl (by simp) (by simp) (by decide +kernel)
  · exact hplain (κ := '`') "x = ".toList "\nexport".toList "export".toList []
      (by simp [isQuote]) rfl (by simp) (by simp) (by decide +kernel)
  · exact hplain (κ := '\'') "if (a == ".toList ['('] [','] ") \x7b\nawait c\n\x7d".toList
      (by simp [isQuote]) rfl (by simp) (by simp) (by decide +kernel)
  · exact hplain (κ := '\'') "const \x7b".toList ['='] ['-'] ": b\x7d = await c".toList
      (by simp [isQuote]) rfl (by simp) (by simp) (by decide +kernel)

end ScriptSandbox.Scan
