import ScriptSandbox.Proofs.Scan.Patterns

/-!
# Sources in tokens

The words, marks and literals of a statement may be spread over a source with any gaps between them:
blanks and comments of both kinds, whatever the comments hold. `Spread` says that a source consists
of given tokens. Blanking its comments leaves the same tokens, with nothing but blanks between them
(`Spread.blanked`).
-/

namespace ScriptSandbox.Scan

/-! ## Classes of characters -/

theorem isWord_of_isBlank {c : Char} (h : Text.isBlank c = true) : Text.isWord c = false := by
  have htable : ∀ r ∈ Text.Ranges.blank, ∀ n ∈ List.range' r.1 (r.2 + 1 - r.1),
      (Text.inRanges Text.Ranges.alphabetic n || Text.inRanges Text.Ranges.mark n ||
        Text.inRanges Text.Ranges.decimalDigit n || Text.inRanges Text.Ranges.connector n ||
        n == 0x200C || n == 0x200D) = false := by
    decide +kernel
  by_cases hascii : c.toNat < 128
  · have hcodes : ∀ n < 128, Text.isBlank (Char.ofNat n) = true →
        Text.isWord (Char.ofNat n) = false := by
      decide +kernel
    rw [← Char.ofNat_toNat c] at h ⊢
    exact hcodes c.toNat hascii h
  · rw [Text.isBlank, if_neg hascii] at h
    obtain ⟨r, hr, hin⟩ := List.any_eq_true.mp h
    have hmem : c.toNat ∈ List.range' r.1 (r.2 + 1 - r.1) := by
      simp only [Bool.and_eq_true, decide_eq_true_eq] at hin
      rw [List.mem_range'_1]
      omega
    have hfalse := htable r hr c.toNat hmem
    simpa [Text.isWord, hascii, Text.isAlphabetic, Text.isMark, Text.isDecimalDigit] using hfalse

theorem inName_of_isBlank {c : Char} (h : Text.isBlank c = true) : inName c = false := by
  rw [inName, isWord_of_isBlank h, Bool.false_or, beq_eq_false_iff_ne]
  rintro rfl
  cases h

theorem ne_of_inName {c d : Char} (h : inName c = true) (hd : inName d = false) : c ≠ d := by
  rintro rfl
  rw [hd] at h
  cases h

theorem isQuote_of_inName {c : Char} (h : inName c = true) : isQuote c = false := by
  simp [isQuote, ne_of_inName h (d := '\'') (by decide), ne_of_inName h (d := '"') (by decide),
    ne_of_inName h (d := '`') (by decide)]

theorem isBrace_of_inName {c : Char} (h : inName c = true) : isBrace c = false := by
  simp [isBrace, ne_of_inName h (d := '\x7b') (by decide),
    ne_of_inName h (d := '\x7d') (by decide)]

theorem isBlank_of_inName {c : Char} (h : inName c = true) : Text.isBlank c = false :=
  Bool.eq_false_iff.mpr fun hblank => Bool.eq_false_iff.mp (inName_of_isBlank hblank) h

theorem isBlank_of_isQuote {c : Char} (h : isQuote c = true) : Text.isBlank c = false := by
  simp only [isQuote, Bool.or_eq_true, beq_iff_eq] at h
  rcases h with (rfl | rfl) | rfl <;> decide

theorem ne_of_isBlank {c d : Char} (h : Text.isBlank c = true) (hd : Text.isBlank d = false) :
    c ≠ d := by
  rintro rfl
  rw [hd] at h
  cases h

theorem isQuote_of_isBlank {c : Char} (h : Text.isBlank c = true) : isQuote c = false :=
  Bool.eq_false_iff.mpr fun hquote => Bool.eq_false_iff.mp (isBlank_of_isQuote hquote) h

theorem isBrace_of_isBlank {c : Char} (h : Text.isBlank c = true) : isBrace c = false := by
  simp [isBrace, ne_of_isBlank h (d := '\x7b') (by decide),
    ne_of_isBlank h (d := '\x7d') (by decide)]

/-! ## Steps of the lexer -/

namespace Lexeme

variable {κ c : Char}

theorem code_step_plain (hslash : c ≠ '/') (hquote : isQuote c = false) (ahead : Option Char) :
    Lexeme.code.step c ahead = (c, .code) := by
  simp [step, hslash, hquote]

theorem code_step_quote (hκ : isQuote κ = true) (ahead : Option Char) :
    Lexeme.code.step κ ahead = (κ, .quoted κ) := by
  have hslash : κ ≠ '/' := by
    rintro rfl
    cases hκ
  simp [step, hslash, hκ]

theorem quoted_step_plain (hslash : c ≠ '\\') (hends : endsQuote κ c = false)
    (ahead : Option Char) : (Lexeme.quoted κ).step c ahead = (c, .quoted κ) := by
  simp [step, hslash, hends]

theorem line_step_plain (hline : c ≠ '\n') (ahead : Option Char) :
    Lexeme.line.step c ahead = (' ', .line) := by
  simp [step, hline]

end Lexeme

theorem endsQuote_eq_false_iff {κ c : Char} :
    endsQuote κ c = false ↔ c ≠ κ ∧ (κ = '`' ∨ c ≠ '\n') := by
  rw [endsQuote, Bool.or_eq_false_iff, beq_eq_false_iff_ne, Bool.and_eq_false_iff,
    beq_eq_false_iff_ne, bne_eq_false_iff_eq, or_comm (a := c ≠ '\n')]

/-! ## Gaps -/

/-- What may stand between two tokens: blanks of a class, and comments of both kinds. -/
inductive Gap (blank : Char → Bool) : List Char → Prop
  | nil : Gap blank []
  | blank {c : Char} {cs : List Char} (hc : blank c = true) (h : Gap blank cs) :
      Gap blank (c :: cs)
  | line {text cs : List Char} (htext : '\n' ∉ text) (h : Gap blank cs) :
      Gap blank ('/' :: '/' :: (text ++ '\n' :: cs))
  | block {text cs : List Char} (htext : ¬ ['*', '/'] <:+: text) (h : Gap blank cs) :
      Gap blank ('/' :: '*' :: (text ++ '*' :: '/' :: cs))

/-- A gap without comments. -/
def Blanks (blank : Char → Bool) (cs : List Char) : Prop := ∀ c ∈ cs, blank c = true

theorem any_past {b : Option Char} {cs : List Char} (hb : b.any Text.isWord = false)
    (hcs : ∀ c ∈ cs, Text.isWord c = false) : (past b cs).any Text.isWord = false := by
  induction cs generalizing b with
  | nil => exact hb
  | cons c cs ih =>
      rw [List.forall_mem_cons] at hcs
      exact ih hcs.1 hcs.2

theorem any_past_blanks {b : Option Char} {g : List Char} (hb : b.any Text.isWord = false)
    (hg : Blanks Text.isBlank g) : (past b g).any Text.isWord = false :=
  any_past hb fun c hc => isWord_of_isBlank (hg c hc)

/-- A piece of code that is read as a whole, whatever follows it, and what becomes of it when
comments are blanked. -/
def Reads (piece out : List Char) : Prop :=
  ∀ rest, blankFrom .code (piece ++ rest) = out ++ blankFrom .code rest

theorem reads_nil : Reads [] [] := fun _ => rfl

theorem Reads.append {piece piece' out out' : List Char} (h : Reads piece out)
    (h' : Reads piece' out') : Reads (piece ++ piece') (out ++ out') := by
  intro rest
  rw [List.append_assoc, h, h', List.append_assoc]

/-- Characters that begin neither a comment nor a string are left as they are. -/
theorem reads_plain {piece : List Char} (h : ∀ c ∈ piece, c ≠ '/' ∧ isQuote c = false) :
    Reads piece piece := by
  induction piece with
  | nil => exact reads_nil
  | cons c cs ih =>
      rw [List.forall_mem_cons] at h
      intro rest
      rw [List.cons_append, blankFrom, Lexeme.code_step_plain h.1.1 h.1.2, ih h.2 rest,
        List.cons_append]

/-- A slash that begins no comment is left as it is. -/
theorem reads_slash {c : Char} {cs out : List Char} (hline : c ≠ '/') (hblock : c ≠ '*')
    (h : Reads (c :: cs) out) : Reads ('/' :: c :: cs) ('/' :: out) := by
  intro rest
  have hstep : Lexeme.code.step '/' (some c) = ('/', .code) := by
    simp [Lexeme.step, hline, hblock, isQuote]
  have hmore := h rest
  rw [List.cons_append] at hmore
  rw [List.cons_append, List.cons_append, blankFrom, List.head?_cons, hstep, hmore]
  rfl

theorem blankFrom_line {text : List Char} (htext : '\n' ∉ text) (rest : List Char) :
    blankFrom .line (text ++ '\n' :: rest) =
      List.replicate text.length ' ' ++ '\n' :: blankFrom .code rest := by
  induction text with
  | nil => rfl
  | cons c cs ih =>
      rw [List.mem_cons, not_or] at htext
      rw [List.cons_append, blankFrom, Lexeme.line_step_plain (Ne.symm htext.1), ih htext.2]
      rfl

theorem blankFrom_block {text : List Char} (htext : ¬ ['*', '/'] <:+: text) (rest : List Char) :
    blankFrom .block (text ++ '*' :: '/' :: rest) =
      text.map blanked ++ ' ' :: ' ' :: blankFrom .code rest := by
  induction text with
  | nil => rfl
  | cons c cs ih =>
      have hopen : (c == '*' && (cs ++ '*' :: '/' :: rest).head? == some '/') = false := by
        refine Bool.eq_false_iff.mpr fun hmark => htext ?_
        simp only [Bool.and_eq_true, beq_iff_eq] at hmark
        cases cs with
        | nil => simp at hmark
        | cons d cs =>
            obtain ⟨rfl, hd⟩ := hmark
            obtain rfl := Option.some.inj hd
            exact (List.prefix_append ['*', '/'] cs).isInfix
      have hstep : Lexeme.block.step c (cs ++ '*' :: '/' :: rest).head? = (blanked c, .block) := by
        simp only [Lexeme.step, hopen, Bool.false_eq_true, if_false]
      rw [List.cons_append, blankFrom, hstep,
        ih fun hends => htext (hends.trans (List.suffix_cons c cs).isInfix)]
      rfl

theorem Blanks.append {blank : Char → Bool} {cs ds : List Char} (h : Blanks blank cs)
    (h' : Blanks blank ds) : Blanks blank (cs ++ ds) := List.forall_mem_append.mpr ⟨h, h'⟩

theorem Gap.reads {blank : Char → Bool} {g : List Char} (hspace : blank ' ' = true)
    (hline : blank '\n' = true)
    (hplain : ∀ c, blank c = true → c ≠ '/' ∧ isQuote c = false) (h : Gap blank g) :
    ∃ out, Blanks blank out ∧ (out = [] → g = []) ∧ Reads g out := by
  have hblanked (c : Char) : blank (blanked c) = true := by
    rw [blanked]
    split
    · exact hline
    · exact hspace
  have hpair : Blanks blank [' ', ' '] := by simp [Blanks, hspace]
  induction h with
  | nil => exact ⟨[], List.forall_mem_nil _, fun _ => rfl, reads_nil⟩
  | @blank c cs hc _ ih =>
      obtain ⟨out, hout, -, hread⟩ := ih
      refine ⟨c :: out, List.forall_mem_cons.mpr ⟨hc, hout⟩, fun h => absurd h (by simp), ?_⟩
      exact (reads_plain (List.forall_mem_singleton.mpr (hplain c hc))).append hread
  | @line text cs htext _ ih =>
      obtain ⟨out, hout, -, hread⟩ := ih
      refine ⟨' ' :: ' ' :: (List.replicate text.length ' ' ++ '\n' :: out), ?_,
        fun h => absurd h (by simp), fun rest => ?_⟩
      · refine hpair.append (.append ?_ ?_)
        · exact fun c hc => (List.mem_replicate.mp hc).2 ▸ hspace
        · exact List.forall_mem_cons.mpr ⟨hline, hout⟩
      · have hline := blankFrom_line htext (cs ++ rest)
        rw [hread] at hline
        simpa [blankFrom, Lexeme.step] using hline
  | @block text cs htext _ ih =>
      obtain ⟨out, hout, -, hread⟩ := ih
      refine ⟨' ' :: ' ' :: (text.map blanked ++ ' ' :: ' ' :: out), ?_,
        fun h => absurd h (by simp), fun rest => ?_⟩
      · refine hpair.append (.append ?_ ?_)
        · exact List.forall_mem_map.mpr fun c _ => hblanked c
        · exact hpair.append hout
      · have hblock := blankFrom_block htext (cs ++ rest)
        rw [hread] at hblock
        simpa [blankFrom, Lexeme.step] using hblock

/-! ## Strings -/

/-- What may stand between two quotes of a kind. -/
inductive Inside (κ : Char) : List Char → Prop
  | nil : Inside κ []
  | plain {c : Char} {cs : List Char} (hquote : c ≠ κ) (hslash : c ≠ '\\')
      (hline : κ = '`' ∨ c ≠ '\n') (h : Inside κ cs) : Inside κ (c :: cs)
  | escape {c : Char} {cs : List Char} (h : Inside κ cs) : Inside κ ('\\' :: c :: cs)

theorem inside_of_plain {κ : Char} {cs : List Char}
    (h : ∀ c ∈ cs, c ≠ κ ∧ c ≠ '\\' ∧ (κ = '`' ∨ c ≠ '\n')) : Inside κ cs := by
  induction cs with
  | nil => exact .nil
  | cons c cs ih =>
      rw [List.forall_mem_cons] at h
      exact .plain h.1.1 h.1.2.1 h.1.2.2 (ih h.2)

theorem blankFrom_inside {κ : Char} {cs : List Char} (hκ : isQuote κ = true) (h : Inside κ cs)
    (rest : List Char) :
    blankFrom (.quoted κ) (cs ++ κ :: rest) = cs ++ κ :: blankFrom .code rest := by
  have hslash : κ ≠ '\\' := by
    rintro rfl
    cases hκ
  induction h with
  | nil => simp [blankFrom, Lexeme.step, hslash, endsQuote]
  | @plain c cs hquote hplain hline _ ih =>
      have hends := endsQuote_eq_false_iff.mpr ⟨hquote, hline⟩
      rw [List.cons_append, blankFrom, Lexeme.quoted_step_plain hplain hends, ih, List.cons_append]
  | escape _ ih => simp [blankFrom, Lexeme.step, ih]

/-! ## Tokens -/

/-- A word that can stand for a name: it is not empty, and its characters are those of names. -/
abbrev Name : Type := {cs : List Char // cs ≠ [] ∧ ∀ c ∈ cs, inName c = true}

namespace Name

def importWord : Name := ⟨"import".toList, by decide, List.all_eq_true.mp (by decide)⟩

def exportWord : Name := ⟨"export".toList, by decide, List.all_eq_true.mp (by decide)⟩

def fromWord : Name := ⟨"from".toList, by decide, List.all_eq_true.mp (by decide)⟩

def asWord : Name := ⟨"as".toList, by decide, List.all_eq_true.mp (by decide)⟩

end Name

/-- Marks of statements. -/
inductive Mark where
  | star
  | comma
  | braceOpen
  | braceClose
  | parenOpen
  | parenClose
  | semicolon
  deriving DecidableEq, Repr, Inhabited

def Mark.char : Mark → Char
  | .star => '*'
  | .comma => ','
  | .braceOpen => '\x7b'
  | .braceClose => '\x7d'
  | .parenOpen => '('
  | .parenClose => ')'
  | .semicolon => ';'

/-- A specifier in quotes. -/
structure Literal where
  quote : Char
  text : List Char
  isQuote : isQuote quote = true
  ne_nil : text ≠ []
  /-- No quote of any kind, no backslash and no line break is in it. -/
  plain : ∀ c ∈ text, Scan.isQuote c = false ∧ c ≠ '\\' ∧ c ≠ '\n'
  /-- It neither begins nor ends with a blank. -/
  trimmed : ∀ c, text.head? = some c ∨ text.getLast? = some c → Text.isBlank c = false
  /-- It has no substitution. -/
  whole : ¬ ['$', '\x7b'] <:+: text

def inPackage (c : Char) : Bool := Text.isWord c || c == '-' || c == '.' || c == '/' || c == '@'

theorem inPackage_plain {c : Char} (h : inPackage c = true) :
    isQuote c = false ∧ c ≠ '\\' ∧ c ≠ '\n' ∧ Text.isBlank c = false ∧ c ≠ '$' ∧ c ≠ '\x7b' ∧
      c ≠ '*' ∧ c ≠ '(' := by
  have hne {d : Char} (hd : inPackage d = false) : c ≠ d := by
    rintro rfl
    rw [hd] at h
    cases h
  refine ⟨?_, hne (by decide), hne (by decide), ?_, hne (by decide), hne (by decide),
    hne (by decide), hne (by decide)⟩
  · simp [isQuote, hne (d := '\'') (by decide), hne (d := '"') (by decide),
      hne (d := '`') (by decide)]
  · refine Bool.eq_false_iff.mpr fun hblank => ?_
    simp only [inPackage, isWord_of_isBlank hblank, Bool.false_or, Bool.or_eq_true,
      beq_iff_eq] at h
    rcases h with ((rfl | rfl) | rfl) | rfl <;> exact absurd hblank (by decide)

/-- The name of a package in quotes. -/
structure Package where
  quote : Char
  text : List Char
  isQuote : isQuote quote = true
  ne_nil : text ≠ []
  inPackage : ∀ c ∈ text, Scan.inPackage c = true

def Package.literal (p : Package) : Literal where
  quote := p.quote
  text := p.text
  isQuote := p.isQuote
  ne_nil := p.ne_nil
  plain c hc := by
    obtain ⟨hquote, hslash, hline, -⟩ := inPackage_plain (p.inPackage c hc)
    exact ⟨hquote, hslash, hline⟩
  trimmed c hc := by
    have hmem : c ∈ p.text := hc.elim List.mem_of_mem_head? List.mem_of_mem_getLast?
    obtain ⟨-, -, -, hblank, -⟩ := inPackage_plain (p.inPackage c hmem)
    exact hblank
  whole h := by
    have hmem : '$' ∈ p.text := h.subset (List.mem_cons_self ..)
    obtain ⟨-, -, -, -, hdollar, -⟩ := inPackage_plain (p.inPackage _ hmem)
    exact absurd rfl hdollar

/-- What a statement is made of. -/
inductive Token where
  | word (name : Name)
  | mark (m : Mark)
  | literal (q : Literal)

namespace Token

def text : Token → List Char
  | .word n => n.1
  | .mark m => [m.char]
  | .literal q => q.quote :: (q.text ++ [q.quote])

def isWord : Token → Bool
  | .word _ => true
  | .mark _ => false
  | .literal _ => false

end Token

theorem Literal.quotable (q : Literal) : Quotable q.quote q.text := by
  intro c hc
  obtain ⟨hquote, -, hline⟩ := q.plain c hc
  refine ⟨?_, .inr hline⟩
  rintro rfl
  rw [q.isQuote] at hquote
  cases hquote

theorem Literal.inside (q : Literal) : Inside q.quote q.text :=
  inside_of_plain fun c hc => ⟨(q.quotable c hc).1, (q.plain c hc).2.1, .inr (q.plain c hc).2.2⟩

theorem reads_string {κ : Char} {inside : List Char} (hκ : isQuote κ = true)
    (h : Inside κ inside) : Reads (κ :: (inside ++ [κ])) (κ :: (inside ++ [κ])) := by
  intro rest
  simp [blankFrom, Lexeme.code_step_quote hκ, blankFrom_inside hκ h]

theorem Literal.reads (q : Literal) : Reads (Token.literal q).text (Token.literal q).text :=
  reads_string q.isQuote q.inside

theorem Token.reads (t : Token) : Reads t.text t.text := by
  cases t with
  | word n =>
      exact reads_plain fun c hc =>
        ⟨ne_of_inName (n.2.2 c hc) (by decide), isQuote_of_inName (n.2.2 c hc)⟩
  | mark m => exact reads_plain (List.forall_mem_singleton.mpr (by cases m <;> decide))
  | literal q => exact q.reads

/-! ## Sources -/

/-- A source consists of tokens with gaps before them. Two words do not touch; `afterWord` tells
whether a word stands before the source. -/
inductive Spread (gap : List Char → Prop) : (afterWord : Bool) → List Token → List Char → Prop
  | nil (afterWord : Bool) : Spread gap afterWord [] []
  | cons {afterWord : Bool} {t : Token} {ts : List Token} {g cs : List Char} (hg : gap g)
      (hapart : afterWord = true → t.isWord = true → g ≠ []) (h : Spread gap t.isWord ts cs) :
      Spread gap afterWord (t :: ts) (g ++ (t.text ++ cs))

/-- Blanks and comments. -/
abbrev AnyGap : List Char → Prop := Gap Text.isBlank

/-- Blanks alone. -/
abbrev AnyBlanks : List Char → Prop := Blanks Text.isBlank

theorem AnyGap.reads {g : List Char} (h : AnyGap g) :
    ∃ out, AnyBlanks out ∧ (out = [] → g = []) ∧ Reads g out :=
  Gap.reads (by decide) (by decide)
    (fun _ hc => ⟨ne_of_isBlank hc (by decide), isQuote_of_isBlank hc⟩) h

theorem Spread.blanked {afterWord : Bool} {ts : List Token} {cs : List Char}
    (h : Spread AnyGap afterWord ts cs) :
    ∃ out, Spread AnyBlanks afterWord ts out ∧ Reads cs out := by
  induction h with
  | nil afterWord => exact ⟨[], .nil afterWord, reads_nil⟩
  | cons hg hapart _ ih =>
      obtain ⟨g, hblank, hempty, hgap⟩ := AnyGap.reads hg
      obtain ⟨out, hout, hread⟩ := ih
      exact ⟨_, .cons hblank (fun h h' hnil => hapart h h' (hempty hnil)) hout,
        hgap.append ((Token.reads _).append hread)⟩

/-- A source consists of tokens with gaps around them. After the last there may also be a line
comment that no line break ends. -/
def Consists (ts : List Token) (source : List Char) : Prop :=
  ∃ body g comment, source = body ++ (g ++ comment) ∧ Spread AnyGap false ts body ∧ AnyGap g ∧
    (comment = [] ∨ ∃ text, '\n' ∉ text ∧ comment = '/' :: '/' :: text)

theorem blankFrom_comment {text : List Char} (h : '\n' ∉ text) :
    AnyBlanks (blankFrom .code ('/' :: '/' :: text)) := by
  have htext : AnyBlanks (blankFrom .line text) := by
    induction text with
    | nil => exact List.forall_mem_nil _
    | cons c cs ih =>
        rw [List.mem_cons, not_or] at h
        rw [blankFrom, Lexeme.line_step_plain (Ne.symm h.1)]
        exact List.forall_mem_cons.mpr ⟨by decide, ih h.2⟩
  have hopen : blankFrom .code ('/' :: '/' :: text) = [' ', ' '] ++ blankFrom .line text := by
    simp [blankFrom, Lexeme.step]
  have hspace : Text.isBlank ' ' = true := by decide
  have hpair : AnyBlanks [' ', ' '] := by simp [Blanks, hspace]
  rw [hopen]
  exact hpair.append htext

theorem Consists.blanked {ts : List Token} {source : List Char} (h : Consists ts source) :
    ∃ out g, blankComments source = out ++ g ∧ Spread AnyBlanks false ts out ∧ AnyBlanks g := by
  obtain ⟨body, g, comment, rfl, hbody, hg, hcomment⟩ := h
  obtain ⟨out, hout, hread⟩ := hbody.blanked
  obtain ⟨blanks, hblanks, -, hgap⟩ := AnyGap.reads hg
  refine ⟨out, blanks ++ blankFrom .code comment, ?_, hout, hblanks.append ?_⟩
  · rw [blankComments, hread, hgap]
  · rcases hcomment with rfl | ⟨text, htext, rfl⟩
    · exact List.forall_mem_nil _
    · exact blankFrom_comment htext

namespace Spread

variable {gap : List Char → Prop} {afterWord : Bool} {t : Token} {ts us : List Token}
  {cs : List Char}

theorem nil_iff : Spread gap afterWord [] cs ↔ cs = [] := by
  refine ⟨fun h => ?_, ?_⟩
  · cases h
    rfl
  · rintro rfl
    exact .nil afterWord

theorem cons_iff : Spread gap afterWord (t :: ts) cs ↔
    ∃ g cs', cs = g ++ (t.text ++ cs') ∧ gap g ∧ (afterWord = true → t.isWord = true → g ≠ []) ∧
      Spread gap t.isWord ts cs' := by
  refine ⟨fun h => ?_, ?_⟩
  · cases h with
    | cons hg hapart h => exact ⟨_, _, rfl, hg, hapart, h⟩
  · rintro ⟨g, cs', rfl, hg, hapart, h⟩
    exact .cons hg hapart h

def endsInWord (afterWord : Bool) : List Token → Bool
  | [] => afterWord
  | t :: ts => endsInWord t.isWord ts

theorem split (h : Spread gap afterWord (ts ++ us) cs) :
    ∃ front back, cs = front ++ back ∧ Spread gap afterWord ts front ∧
      Spread gap (endsInWord afterWord ts) us back := by
  induction ts generalizing afterWord cs with
  | nil => exact ⟨[], cs, rfl, .nil afterWord, h⟩
  | cons t ts ih =>
      obtain ⟨g, cs', rfl, hg, hapart, h⟩ := cons_iff.mp h
      obtain ⟨front, back, rfl, hfront, hback⟩ := ih h
      exact ⟨g ++ (t.text ++ front), back, by simp, .cons hg hapart hfront, hback⟩

/-- Characters are those of gaps and of tokens. -/
theorem forall_mem {P : Char → Prop} (h : Spread gap afterWord ts cs)
    (hgap : ∀ g, gap g → ∀ c ∈ g, P c) (htext : ∀ t ∈ ts, ∀ c ∈ t.text, P c) : ∀ c ∈ cs, P c := by
  induction h with
  | nil afterWord => exact List.forall_mem_nil _
  | cons hg _ _ ih =>
      rw [List.forall_mem_cons] at htext
      exact List.forall_mem_append.mpr
        ⟨hgap _ hg, List.forall_mem_append.mpr ⟨htext.1, ih htext.2⟩⟩

theorem mem_of_mem (h : Spread gap afterWord ts cs) (ht : t ∈ ts) {c : Char} (hc : c ∈ t.text) :
    c ∈ cs := by
  induction h with
  | nil afterWord => exact absurd ht List.not_mem_nil
  | cons _ _ _ ih =>
      refine List.mem_append_right _ (List.mem_append.mpr ?_)
      rcases List.mem_cons.mp ht with rfl | ht
      · exact .inl hc
      · exact .inr (ih ht)

/-- Among the tokens each brace that is opened is closed. -/
def Closed : List Token → Prop
  | [] => True
  | t :: ts => (t = .mark .braceOpen → .mark .braceClose ∈ ts) ∧ Closed ts

theorem closed_append (h : ∀ t ∈ ts, t ≠ .mark .braceOpen) (hus : Closed us) :
    Closed (ts ++ us) := by
  induction ts with
  | nil => exact hus
  | cons t ts ih =>
      rw [List.forall_mem_cons] at h
      exact ⟨fun ht => absurd ht h.1, ih h.2⟩

theorem braceOpen_not_mem_text (ht : t ≠ .mark .braceOpen)
    (hliteral : ∀ q, t ≠ .literal q) : '\x7b' ∉ t.text := by
  cases t with
  | word n => exact fun h => absurd (n.2.2 _ h) (by decide)
  | mark m => cases m <;> simp_all [Token.text, Mark.char]
  | literal q => exact absurd rfl (hliteral q)

theorem enclosed (h : Spread AnyBlanks afterWord ts cs) (hclosed : Closed ts)
    (hliteral : ∀ q, .literal q ∉ ts) : Enclosed cs := by
  induction h with
  | nil afterWord => exact enclosed_of_not_mem List.not_mem_nil
  | @cons afterWord t ts g cs hg _ h ih =>
      have hgap : '\x7b' ∉ g := fun hc => absurd (hg _ hc) (by decide)
      have hcs := ih hclosed.2 fun q hq => hliteral q (List.mem_cons_of_mem _ hq)
      refine .append hgap ?_
      by_cases ht : t = .mark .braceOpen
      · subst ht
        exact .cons ⟨'\x7d', h.mem_of_mem (hclosed.1 rfl) (List.mem_singleton.mpr rfl), rfl⟩ hcs
      · refine .append (braceOpen_not_mem_text ht fun q hq => ?_) hcs
        exact hliteral q (hq ▸ List.mem_cons_self ..)

end Spread

end ScriptSandbox.Scan
