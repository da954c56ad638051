import ScriptSandbox.Proofs.Scan.Comments
import ScriptSandbox.Proofs.Scan.Literals

/-!
# Two readers of strings

Strings are told twice: by the lexer that blanks the comments of a source, and by the walk over the
code that counts its braces. The lexer can also be read in pieces, `readFrom`, that takes the two
characters of a mark or of an escape at once and has no mode for being between them; it gives the same
code and the same strings (`readFrom_eq`). The walk stands with respect to strings where the lexer did
at the same place of the source (`quoteAfter_take`). A place is in a string, by both, if a quote that
is code stands before it and nothing between the two ends the string (`inLiteral_iff`). So a brace
counts for the walk if it is in no literal of the source: `walk_follows_lexer`.
-/

namespace ScriptSandbox.Scan

variable {source cs text : List Char} {m l l' : Lexeme} {κ c : Char} {i k : Nat}

/-! ## The lexer in pieces -/

/-- What the next piece of a source belongs to. -/
inductive Mode where
  | code
  | quoted (quote : Char)
  | line
  | block
  deriving DecidableEq, Repr

def Mode.lexeme : Mode → Lexeme
  | .code => .code
  | .quoted q => .quoted q
  | .line => .line
  | .block => .block

/-- For each character of a source what stands there in the code, and whether a string is open before
it. -/
def readFrom : Mode → List Char → List (Char × QuoteState)
  | _, [] => []
  | .code, '/' :: '/' :: cs => (' ', .outside) :: (' ', .outside) :: readFrom .line cs
  | .code, '/' :: '*' :: cs => (' ', .outside) :: (' ', .outside) :: readFrom .block cs
  | .code, c :: cs => (c, .outside) :: readFrom (if isQuote c then .quoted c else .code) cs
  | .quoted q, '\\' :: c :: cs => ('\\', .inside q) :: (c, .escaped q) :: readFrom (.quoted q) cs
  | .quoted q, ['\\'] => [('\\', .inside q)]
  | .quoted q, c :: cs => (c, .inside q) :: readFrom (if endsQuote q c then .code else .quoted q) cs
  | .line, c :: cs =>
    if c == '\n' then ('\n', .outside) :: readFrom .code cs
    else (' ', .outside) :: readFrom .line cs
  | .block, '*' :: '/' :: cs => (' ', .outside) :: (' ', .outside) :: readFrom .code cs
  | .block, c :: cs => (blanked c, .outside) :: readFrom .block cs

theorem no_mark {a b : Char} (h : ∀ rest, c = a → cs = b :: rest → False) :
    (c == a && cs.head? == some b) = false := by
  refine Bool.eq_false_iff.mpr fun hmark => ?_
  obtain ⟨hc, hhead⟩ := eq_of_mark hmark
  obtain ⟨rest, hcs⟩ := List.head?_eq_some_iff.mp hhead
  exact h rest hc hcs

/-- A piece of one character is one step of the lexer. -/
theorem readFrom_char (mode : Mode) {next : Mode} {d : Char}
    (hstep : mode.lexeme.step c cs.head? = (d, next.lexeme))
    (hrest : readFrom next cs =
      (blankFrom next.lexeme cs).zip ((lexemesFrom next.lexeme cs).map Lexeme.quoteState)) :
    (d, mode.lexeme.quoteState) :: readFrom next cs =
      (blankFrom mode.lexeme (c :: cs)).zip
        ((lexemesFrom mode.lexeme (c :: cs)).map Lexeme.quoteState) := by
  rw [hrest, blankFrom, lexemesFrom, hstep]
  rfl

/-- Read in pieces or by characters, the code and the strings are the same. -/
theorem readFrom_eq (mode : Mode) (cs : List Char) :
    readFrom mode cs =
      (blankFrom mode.lexeme cs).zip ((lexemesFrom mode.lexeme cs).map Lexeme.quoteState) := by
  -- A piece of two characters is two steps of the lexer, which compute.
  fun_induction readFrom mode cs with
  | case1 mode => rfl
  | case2 cs ih => rw [ih]; rfl
  | case3 cs ih => rw [ih]; rfl
  | case4 c cs hline hblock ih =>
      refine readFrom_char .code ?_ ih
      simp only [Mode.lexeme, Lexeme.step, no_mark hline, no_mark hblock, Bool.false_eq_true, if_false]
      split <;> rfl
  | case5 q c cs ih => rw [ih]; rfl
  | case6 q => rfl
  | case7 q c cs hescape hlast ih =>
      have hc : (c == '\\') = false := by
        refine beq_eq_false_iff_ne.mpr fun hc => ?_
        cases cs with
        | nil => exact hlast hc rfl
        | cons d cs => exact hescape d cs hc rfl
      refine readFrom_char (.quoted q) ?_ ih
      simp only [Mode.lexeme, Lexeme.step, hc, Bool.false_eq_true, if_false]
      split <;> rfl
  | case8 c cs hc ih =>
      exact readFrom_char .line (by simp [Mode.lexeme, Lexeme.step, hc]) ih
  | case9 c cs hc ih =>
      exact readFrom_char .line (by simp [Mode.lexeme, Lexeme.step, hc]) ih
  | case10 cs ih => rw [ih]; rfl
  | case11 c cs hends ih =>
      refine readFrom_char .block ?_ ih
      simp only [Mode.lexeme, Lexeme.step, no_mark hends, Bool.false_eq_true, if_false]

theorem getElem?_readFrom (hc : (blankComments source)[i]? = some c)
    (hl : (lexemes source)[i]? = some l) :
    (readFrom .code source)[i]? = some (c, l.quoteState) := by
  rw [readFrom_eq, List.getElem?_zip_eq_some, List.getElem?_map]
  exact ⟨hc, congrArg (Option.map Lexeme.quoteState) hl⟩

theorem length_lexemesFrom (m : Lexeme) (cs : List Char) :
    (lexemesFrom m cs).length = cs.length := by
  induction cs generalizing m with
  | nil => rfl
  | cons c cs ih => rw [lexemesFrom, List.length_cons, ih, List.length_cons]

theorem exists_lexeme (hi : i < source.length) :
    ∃ c l, (blankComments source)[i]? = some c ∧ (lexemes source)[i]? = some l := by
  have hcode : i < (blankComments source).length := by rwa [length_blankComments]
  have hlexeme : i < (lexemes source).length := by rwa [lexemes, length_lexemesFrom]
  exact ⟨_, _, List.getElem?_eq_getElem hcode, List.getElem?_eq_getElem hlexeme⟩

/-! ## The walk -/

theorem foldl_next_take (hi : (lexemesFrom m cs)[i]? = some l) :
    ((blankFrom m cs).take i).foldl QuoteState.next m.quoteState = l.quoteState := by
  induction cs generalizing m i with
  | nil => cases hi
  | cons c cs ih =>
      cases i with
      | zero =>
          obtain rfl := Option.some.inj hi
          rfl
      | succ i =>
          rw [blankFrom, List.take_succ_cons, List.foldl_cons, Lexeme.next_step]
          exact ih hi

/-- The walk over the code stands with respect to strings where the lexer did in the source. -/
theorem quoteAfter_take (hi : (lexemes source)[i]? = some l) :
    quoteAfter ((blankComments source).take i) = l.quoteState :=
  foldl_next_take hi

/-! ## Literals -/

/-- Text in a string that does not end it. It may break off behind a backslash. -/
def Unended (κ : Char) (text : List Char) : Prop :=
  Inside κ text ∨ ∃ front, text = front ++ ['\\'] ∧ Inside κ front

/-- A quote that is code stands before a place of a source, with some text in between. -/
def Opened (source : List Char) (i : Nat) (κ : Char) (text : List Char) : Prop :=
  ∃ front, source.take i = front ++ κ :: text ∧ isQuote κ = true ∧
    (lexemes source)[front.length]? = some .code

/-- Whether a place of a source lies in a string literal, and not at the quote that opens it. -/
def InLiteral (source : List Char) (i : Nat) : Prop :=
  ∃ κ text, Opened source i κ text ∧ Unended κ text

theorem Inside.append {more : List Char} (h : Inside κ text) (hmore : Inside κ more) :
    Inside κ (text ++ more) := by
  induction h with
  | nil => exact hmore
  | plain hquote hslash hline _ ih => exact .plain hquote hslash hline ih
  | escape _ ih => exact .escape ih

theorem drop_lexemesFrom (hk : (lexemesFrom m cs)[k]? = some l) :
    (lexemesFrom m cs).drop k = lexemesFrom l (cs.drop k) := by
  induction cs generalizing m k with
  | nil => cases hk
  | cons c cs ih =>
      cases k with
      | zero =>
          obtain rfl := Option.some.inj hk
          rfl
      | succ k => exact ih hk

/-- The lexer passes what stands in a string. -/
theorem drop_lexemesFrom_inside (h : Inside κ text) (rest : List Char) :
    (lexemesFrom (.quoted κ) (text ++ rest)).drop text.length = lexemesFrom (.quoted κ) rest := by
  induction h with
  | nil => rfl
  | @plain c cs hquote hslash hline _ ih =>
      have hends := endsQuote_eq_false_iff.mpr ⟨hquote, hline⟩
      rw [List.cons_append, lexemesFrom, Lexeme.quoted_step_plain hslash hends]
      exact ih
  | escape _ ih => exact ih

theorem eq_of_head?_lexemesFrom (h : (lexemesFrom m cs).head? = some l) : l = m := by
  cases cs with
  | nil => cases h
  | cons c cs => exact (Option.some.inj h).symm

theorem Opened.drop_lexemes (h : Opened source i κ text) (hi : i ≤ source.length) :
    ∃ k, k + text.length = i ∧
      (lexemes source).drop k = lexemesFrom (.quoted κ) (text ++ source.drop i) := by
  obtain ⟨front, htake, hκ, hcode⟩ := h
  -- The quote is code, so behind it the lexer is in the string.
  have hsource : source.drop front.length = κ :: (text ++ source.drop i) := by
    conv_lhs => rw [← List.take_append_drop i source, htake, List.append_assoc]
    exact List.drop_left
  have hlength := congrArg List.length htake
  simp only [List.length_take, List.length_append, List.length_cons] at hlength
  refine ⟨front.length + 1, by omega, ?_⟩
  rw [← List.drop_drop, lexemes, drop_lexemesFrom hcode, hsource, lexemesFrom,
    Lexeme.code_step_quote hκ]
  rfl

/-- In a literal the lexer knows of it. -/
theorem InLiteral.quoteState_ne (h : InLiteral source i) (hi : (lexemes source)[i]? = some l) :
    l.quoteState ≠ .outside := by
  obtain ⟨κ, text, hopened, hunended⟩ := h
  have hlt : i < source.length := by
    rw [← length_lexemesFrom .code source]
    exact (List.getElem?_eq_some_iff.mp hi).1
  obtain ⟨k, rfl, hdrop⟩ := hopened.drop_lexemes hlt.le
  have hhead : (((lexemes source).drop k).drop text.length).head? = some l := by
    rw [List.drop_drop, List.head?_drop, hi]
  rw [hdrop] at hhead
  rcases hunended with hinside | ⟨front, rfl, hinside⟩
  · rw [drop_lexemesFrom_inside hinside] at hhead
    rw [eq_of_head?_lexemesFrom hhead]
    exact nofun
  · rw [List.length_append, ← List.drop_drop, List.append_assoc,
      drop_lexemesFrom_inside hinside] at hhead
    have hescaped : l = .escaped κ := eq_of_head?_lexemesFrom hhead
    rw [hescaped]
    exact nofun

theorem Opened.next (h : Opened source i κ text) (hc : source[i]? = some c) :
    Opened source (i + 1) κ (text ++ [c]) := by
  obtain ⟨front, htake, hκ, hcode⟩ := h
  refine ⟨front, ?_, hκ, hcode⟩
  rw [List.take_add_one, htake, hc]
  simp

/-- What stands since the quote that the lexer knows of. -/
def Lexeme.Since (source : List Char) (i : Nat) : Lexeme → Prop
  | .quoted κ => ∃ text, Opened source i κ text ∧ Inside κ text
  | .escaped κ => ∃ text, Opened source i κ (text ++ ['\\']) ∧ Inside κ text
  | _ => True

theorem Lexeme.Since.step (h : l.Since source i) (hi : (lexemes source)[i]? = some l)
    (hc : source[i]? = some c) (ahead : Option Char) :
    (l.step c ahead).2.Since source (i + 1) := by
  cases l with
  | code =>
      rw [Lexeme.step]
      split
      · trivial
      split
      · trivial
      split
      · next hquote =>
          have hlt : i < source.length := (List.getElem?_eq_some_iff.mp hc).1
          have hlength : (source.take i).length = i := List.length_take_of_le hlt.le
          refine ⟨[], ⟨source.take i, ?_, hquote, by rw [hlength, hi]⟩, .nil⟩
          rw [List.take_add_one, hc]
          rfl
      · trivial
  | quoted q =>
      obtain ⟨text, hopened, hinside⟩ := h
      rw [Lexeme.step]
      split
      · next hslash =>
          obtain rfl := beq_iff_eq.mp hslash
          exact ⟨text, hopened.next hc, hinside⟩
      split
      · trivial
      · next hslash hends =>
          rw [Bool.not_eq_true, endsQuote_eq_false_iff] at hends
          refine ⟨text ++ [c], hopened.next hc, hinside.append (.plain hends.1 ?_ hends.2 .nil)⟩
          rintro rfl
          exact hslash rfl
  | escaped q =>
      obtain ⟨text, hopened, hinside⟩ := h
      refine ⟨text ++ ['\\', c], ?_, hinside.append (.escape .nil)⟩
      have hnext := hopened.next hc
      rwa [List.append_assoc] at hnext
  | lineOpening => trivial
  | line =>
      rw [Lexeme.step]
      split <;> trivial
  | blockOpening => trivial
  | block =>
      rw [Lexeme.step]
      split <;> trivial
  | blockClosing => trivial

theorem lexemes_succ (hnext : (lexemesFrom m cs)[i + 1]? = some l') :
    ∃ l c, (lexemesFrom m cs)[i]? = some l ∧ cs[i]? = some c ∧
      l' = (l.step c cs[i + 1]?).2 := by
  induction cs generalizing m i with
  | nil => cases hnext
  | cons c cs ih =>
      cases i with
      | zero =>
          cases cs with
          | nil => cases hnext
          | cons d cs => exact ⟨m, c, rfl, rfl, (Option.some.inj hnext).symm⟩
      | succ i => exact ih hnext

/-- The quote at which a string was opened, with what stands since, at each place of the source. -/
theorem since_lexemes (hi : (lexemes source)[i]? = some l) : l.Since source i := by
  induction i generalizing l with
  | zero =>
      have hhead : (lexemesFrom .code source).head? = some l := by
        rw [List.head?_eq_getElem?]
        exact hi
      obtain rfl := eq_of_head?_lexemesFrom hhead
      trivial
  | succ i ih =>
      obtain ⟨l, c, hl, hc, rfl⟩ := lexemes_succ hi
      exact (ih hl).step hl hc _

/-- A place lies in a literal exactly if the lexer is in a string there. -/
theorem inLiteral_iff (hi : (lexemes source)[i]? = some l) :
    InLiteral source i ↔ l.quoteState ≠ .outside := by
  refine ⟨fun h => h.quoteState_ne hi, fun hne => ?_⟩
  have hsince := since_lexemes hi
  cases l with
  | quoted κ =>
      obtain ⟨text, hopened, hinside⟩ := hsince
      exact ⟨κ, text, hopened, Or.inl hinside⟩
  | escaped κ =>
      obtain ⟨text, hopened, hinside⟩ := hsince
      exact ⟨κ, _, hopened, Or.inr ⟨text, rfl, hinside⟩⟩
  | code => exact absurd rfl hne
  | lineOpening => exact absurd rfl hne
  | line => exact absurd rfl hne
  | blockOpening => exact absurd rfl hne
  | block => exact absurd rfl hne
  | blockClosing => exact absurd rfl hne

/-! ## Braces -/

/-- What a brace that is code does to the open blocks. -/
def Nesting.atBrace (n : Nesting) (c : Char) : Except SplitCharacter (List Bool) :=
  if c == '\x7b' then (opensFunction n.passed).map (· :: n.blocks) else .ok n.blocks.tail

theorem Nesting.step_brace {n : Nesting} (hn : n.quote = .outside) (hc : isBrace c = true) :
    (n.step c).map (·.blocks) = n.atBrace c := by
  obtain ⟨quote, blocks, passed⟩ := n
  obtain rfl : quote = .outside := hn
  rw [isBrace, Bool.or_eq_true, beq_iff_eq, beq_iff_eq] at hc
  rcases hc with rfl | rfl
  · have hquote : isQuote '\x7b' = false := by decide
    simp only [Nesting.step, Nesting.atBrace, hquote, Bool.false_eq_true, if_false, beq_self_eq_true,
      if_true]
    cases opensFunction passed <;> rfl
  · rfl

theorem Nesting.step_inside {n : Nesting} (hn : n.quote ≠ .outside) (c : Char) :
    (n.step c).map (·.blocks) = .ok n.blocks := by
  obtain ⟨quote, blocks, passed⟩ := n
  cases quote with
  | outside => exact absurd rfl hn
  | inside q => rfl
  | escaped q => rfl

/-- At each place of the code the walk stands with respect to strings where the lexer did, read in
pieces, at the same place of the source; unless it does not get there, since a brace before it splits
a word. A brace changes the open blocks exactly if it is in no string literal of the source. -/
theorem walk_follows_lexer (source : List Char) (i : Fin source.length) :
    let before := (blankComments source).take i
    ∃ c q, (readFrom .code source)[i.val]? = some (c, q) ∧
      (blankComments source)[i.val]? = some c ∧
      quoteAfter before = q ∧ (q = .outside ↔ ¬ InLiteral source i) ∧
      ((∃ d, before.foldlM Nesting.step {} = .error ⟨d⟩ ∧ SplitBrace before d) ∨
        ∃ n, before.foldlM Nesting.step {} = .ok n ∧ n.quote = q ∧
          (isBrace c = true →
            (InLiteral source i → (n.step c).map (·.blocks) = .ok n.blocks) ∧
            (¬ InLiteral source i → (n.step c).map (·.blocks) = n.atBrace c))) := by
  intro before
  obtain ⟨c, l, hc, hl⟩ := exists_lexeme i.isLt
  have hquote : quoteAfter before = l.quoteState := quoteAfter_take hl
  have hliteral : l.quoteState = .outside ↔ ¬ InLiteral source i := by
    rw [inLiteral_iff hl, not_not]
  refine ⟨c, l.quoteState, getElem?_readFrom hc hl, hc, hquote, hliteral, ?_⟩
  rcases foldlM_step_cases before with ⟨d, herror, hsplit⟩ | ⟨blocks, hok, -⟩
  · exact Or.inl ⟨d, herror, hsplit⟩
  · refine Or.inr ⟨_, hok, hquote, fun hbrace => ⟨fun hin => ?_, fun hout => ?_⟩⟩
    · refine Nesting.step_inside ?_ c
      rw [hquote]
      exact fun houtside => hliteral.mp houtside hin
    · exact Nesting.step_brace (hquote.trans (hliteral.mpr hout)) hbrace

end ScriptSandbox.Scan
