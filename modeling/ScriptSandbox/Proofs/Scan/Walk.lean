import Mathlib
import ScriptSandbox.Proofs.Scan.Head

/-!
# The walk over code

`insideFunction` folds `Nesting.step` over the code before a place. Two things of its state are
known without the fold: the code passed is what was read, and whether a string is open depends on
the characters alone (`quoteAfter`). What is left is when the fold fails: at the first brace outside
the strings whose text before it splits a word (`insideFunction_ok_iff`).
-/

namespace ScriptSandbox.Scan

/-! ## Strings -/

/-- Where the walk stands with respect to strings after one more character. -/
def QuoteState.next : QuoteState → Char → QuoteState
  | .inside q, c => if c == '\\' then .escaped q else if endsQuote q c then .outside else .inside q
  | .escaped q, _ => .inside q
  | .outside, c => if isQuote c then .inside c else .outside

/-- Where the walk stands with respect to strings after some code. -/
def quoteAfter (code : List Char) : QuoteState := code.foldl QuoteState.next .outside

/-! ## One step -/

/-- A step fails at a brace outside the strings if the text before it splits a word, and otherwise
goes on with one more character passed. -/
theorem Nesting.step_cases (n : Nesting) (c : Char) :
    (∃ e, n.step c = .error e ∧ n.quote = .outside ∧ c = '\x7b' ∧
        opensFunction n.passed = .error e) ∨
      (∃ blocks, n.step c = .ok ⟨n.quote.next c, blocks, c :: n.passed⟩ ∧
        (n.quote = .outside → c = '\x7b' → ∃ b, opensFunction n.passed = .ok b)) := by
  obtain ⟨quote, blocks, passed⟩ := n
  rw [Nesting.step]
  cases quote with
  | inside q => exact Or.inr ⟨blocks, rfl, by simp⟩
  | escaped q => exact Or.inr ⟨blocks, rfl, by simp⟩
  | outside =>
      by_cases hquote : isQuote c
      · refine Or.inr ⟨blocks, by simp [QuoteState.next, hquote], ?_⟩
        rintro - rfl
        exact absurd hquote (by decide)
      by_cases hopen : c = '\x7b'
      · subst hopen
        cases hhead : opensFunction passed with
        | error e => exact Or.inl ⟨e, by simp [hquote], rfl, rfl, rfl⟩
        | ok b =>
            exact Or.inr ⟨b :: blocks, by simp [QuoteState.next, hquote], fun _ _ => ⟨b, rfl⟩⟩
      · refine Or.inr ⟨if c == '\x7d' then blocks.tail else blocks, ?_, fun _ h => absurd h hopen⟩
        by_cases hclose : c == '\x7d' <;> simp only [QuoteState.next, hquote, hopen, hclose,
          beq_iff_eq, if_true, if_false, Bool.false_eq_true]

theorem Nesting.passed_of_step {n n' : Nesting} {c : Char} (h : n.step c = .ok n') :
    n'.passed = c :: n.passed := by
  rcases n.step_cases c with ⟨e, herror, -⟩ | ⟨blocks, hok, -⟩
  · rw [herror] at h; cases h
  · rw [hok] at h; cases h; rfl

/-! ## The whole walk -/

/-- Whether some brace of the code stands outside the strings, after a text that splits a word
before the character `c`. -/
def SplitBrace (code : List Char) (c : Char) : Prop :=
  ∃ head rest, code = head ++ '\x7b' :: rest ∧ quoteAfter head = .outside ∧ SplitsWord head c

/-- The brace is the last character of the code, or stands before it. -/
theorem splitBrace_concat {code : List Char} {c d : Char} :
    SplitBrace (code ++ [d]) c ↔
      SplitBrace code c ∨ (d = '\x7b' ∧ quoteAfter code = .outside ∧ SplitsWord code c) := by
  constructor
  · rintro ⟨head, rest, heq, houtside, hsplit⟩
    rcases List.eq_nil_or_concat rest with rfl | ⟨rest, x, rfl⟩
    · obtain ⟨rfl, hd⟩ := List.append_inj' heq rfl
      exact Or.inr ⟨by simpa using hd, houtside, hsplit⟩
    · have heq' : code ++ [d] = (head ++ '\x7b' :: rest) ++ [x] := by simpa using heq
      exact Or.inl ⟨head, rest, (List.append_inj' heq' rfl).1, houtside, hsplit⟩
  · rintro (⟨head, rest, rfl, houtside, hsplit⟩ | ⟨rfl, houtside, hsplit⟩)
    · exact ⟨head, rest ++ [d], by simp, houtside, hsplit⟩
    · exact ⟨code, [], rfl, houtside, hsplit⟩

theorem SplitBrace.append {code : List Char} {c : Char} (h : SplitBrace code c)
    (more : List Char) : SplitBrace (code ++ more) c := by
  obtain ⟨head, rest, rfl, houtside, hsplit⟩ := h
  exact ⟨head, rest ++ more, by simp, houtside, hsplit⟩

/-- The walk over some code comes to its end, with all of it passed, if no brace of it splits a
word; otherwise it names the character before a word that is split. -/
theorem foldlM_step_cases (code : List Char) :
    (∃ c, code.foldlM Nesting.step {} = .error ⟨c⟩ ∧ SplitBrace code c) ∨
      (∃ blocks, code.foldlM Nesting.step {} = .ok ⟨quoteAfter code, blocks, code.reverse⟩ ∧
        ∀ c, ¬ SplitBrace code c) := by
  induction code using List.reverseRecOn with
  | nil => exact Or.inr ⟨[], rfl, by rintro c ⟨head, rest, heq, -⟩; simp at heq⟩
  | append_singleton code d ih =>
      rcases ih with ⟨c, herror, hsplit⟩ | ⟨blocks, hok, hnone⟩
      · exact Or.inl ⟨c, by rw [List.foldlM_append, herror]; rfl, hsplit.append [d]⟩
      have hstep : (code ++ [d]).foldlM Nesting.step {} =
          Nesting.step ⟨quoteAfter code, blocks, code.reverse⟩ d := by
        rw [List.foldlM_append, hok, ← bind_pure (Nesting.step _ d)]; rfl
      have hquote : quoteAfter (code ++ [d]) = (quoteAfter code).next d := by
        rw [quoteAfter, List.foldl_append]; rfl
      rw [hstep, hquote, List.reverse_append]
      rcases Nesting.step_cases ⟨quoteAfter code, blocks, code.reverse⟩ d with
        ⟨⟨c⟩, herror, houtside, hbrace, hhead⟩ | ⟨blocks', hok', hbrace⟩
      · exact Or.inl ⟨c, herror, splitBrace_concat.mpr
          (Or.inr ⟨hbrace, houtside, splitsWord_of_opensFunction_error hhead⟩)⟩
      · refine Or.inr ⟨blocks', hok', fun c hc => ?_⟩
        rcases splitBrace_concat.mp hc with hc | ⟨hd, houtside, hsplit⟩
        · exact hnone c hc
        · obtain ⟨b, hb⟩ := hbrace houtside hd
          rw [opensFunction_error_of_splitsWord hsplit] at hb
          cases hb

/-- It can be told whether a place lies inside a function unless a brace before it splits a word. -/
theorem insideFunction_ok_iff (code : List Char) :
    (∃ b, insideFunction code = .ok b) ↔ ∀ c, ¬ SplitBrace code c := by
  rw [insideFunction]
  rcases foldlM_step_cases code with ⟨c, herror, hsplit⟩ | ⟨blocks, hok, hnone⟩
  · rw [herror]
    refine ⟨?_, fun h => absurd hsplit (h c)⟩
    rintro ⟨b, hb⟩
    cases hb
  · rw [hok]
    exact ⟨fun _ => hnone, fun _ => ⟨_, rfl⟩⟩

end ScriptSandbox.Scan
