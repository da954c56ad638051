import ScriptSandbox.Proofs.Scan.Tokens

/-!
# Where comments are, and what blanking them keeps

`comments` tells of each character of a source whether it belongs to a comment. Blanking keeps the
characters that do not and puts a blank in the place of those that do (`blankFrom_eq_zipWith`), so a
place of the code that holds anything but a blank is the same place of the source, outside its comments
(`getElem?_of_blankComments`).

The code has no comments left, since no two characters that stand next to each other in it open one
that does not open one in the source (`not_commented_blankFrom`), and it does not tell what the
comments of the source said (`Recommented.blankFrom_eq`). `blankComments_laws` puts this together.
-/

namespace ScriptSandbox.Scan

/-- Whether a character belongs to a comment, by what it belongs to and the one after it. The line
break that ends a comment is not part of it. -/
def Lexeme.commented (m : Lexeme) (c : Char) (ahead : Option Char) : Bool :=
  match m with
  | .code => c == '/' && (ahead == some '/' || ahead == some '*')
  | .quoted _ | .escaped _ => false
  | .line => c != '\n'
  | .lineOpening | .blockOpening | .block | .blockClosing => true

def commentsFrom : Lexeme → List Char → List Bool
  | _, [] => []
  | m, c :: cs => m.commented c cs.head? :: commentsFrom (m.step c cs.head?).2 cs

def comments (source : List Char) : List Bool := commentsFrom .code source

theorem isBlank_blanked (c : Char) : Text.isBlank (blanked c) = true := by
  rw [blanked]
  split <;> decide

theorem Lexeme.step_of_commented {m : Lexeme} {c : Char} {ahead : Option Char}
    (h : m.commented c ahead = true) : Text.isBlank (m.step c ahead).1 = true := by
  have hspace : Text.isBlank ' ' = true := by decide
  cases m with
  | code =>
      simp only [commented, Bool.and_eq_true, Bool.or_eq_true, beq_iff_eq] at h
      obtain ⟨rfl, rfl | rfl⟩ := h
      · simpa [step] using hspace
      · simpa [step] using hspace
  | quoted q => cases h
  | escaped q => cases h
  | line =>
      have hc : (c == '\n') = false := by simpa [commented] using h
      simpa [step, hc] using hspace
  | block =>
      rw [step]
      split
      · exact hspace
      · exact isBlank_blanked c
  | lineOpening => exact hspace
  | blockOpening => exact hspace
  | blockClosing => exact hspace

theorem Lexeme.step_of_not_commented {m : Lexeme} {c : Char} {ahead : Option Char}
    (h : m.commented c ahead = false) : (m.step c ahead).1 = c := by
  cases m with
  | code =>
      have hline : (c == '/' && ahead == some '/') = false := by
        by_cases hc : c = '/' <;> simp_all [commented]
      have hblock : (c == '/' && ahead == some '*') = false := by
        by_cases hc : c = '/' <;> simp_all [commented]
      simp only [step, hline, hblock, Bool.false_eq_true, if_false]
      split <;> rfl
  | quoted q =>
      rw [step]
      split
      · rfl
      · split <;> rfl
  | escaped q => rfl
  | line =>
      have hc : c = '\n' := by simpa [commented] using h
      simp [step, hc]
  | block => cases h
  | lineOpening => cases h
  | blockOpening => cases h
  | blockClosing => cases h

theorem getElem?_of_blankFrom {m : Lexeme} {cs : List Char} {i : Nat} {c : Char}
    (hi : (blankFrom m cs)[i]? = some c) (hc : Text.isBlank c = false) :
    cs[i]? = some c ∧ (commentsFrom m cs)[i]? = some false := by
  induction cs generalizing m i with
  | nil => simp [blankFrom] at hi
  | cons d cs ih =>
      rw [blankFrom] at hi
      cases i with
      | succ i =>
          rw [List.getElem?_cons_succ] at hi
          exact ih hi
      | zero =>
          have hd : (m.step d cs.head?).1 = c := by simpa using hi
          have hfree : m.commented d cs.head? = false := by
            refine Bool.eq_false_iff.mpr fun hcomment => ?_
            have hblank := Lexeme.step_of_commented hcomment
            rw [hd, hc] at hblank
            cases hblank
          rw [Lexeme.step_of_not_commented hfree] at hd
          subst hd
          exact ⟨rfl, by rw [commentsFrom, hfree]; rfl⟩

/-- What stands in the code and is no blank stands at the same place of the source, outside its
comments. -/
theorem getElem?_of_blankComments {source : List Char} {i : Nat} {c : Char}
    (hi : (blankComments source)[i]? = some c) (hc : Text.isBlank c = false) :
    source[i]? = some c ∧ (comments source)[i]? = some false :=
  getElem?_of_blankFrom hi hc

variable {m : Lexeme} {cs cs' source source' : List Char} {c : Char} {ahead ahead' : Option Char}

/-! ## What each character belongs to -/

def lexemesFrom : Lexeme → List Char → List Lexeme
  | _, [] => []
  | m, c :: cs => m :: lexemesFrom (m.step c cs.head?).2 cs

/-- What each character of a source belongs to. -/
def lexemes (source : List Char) : List Lexeme := lexemesFrom .code source

theorem eq_of_mark {a b : Char} (h : (c == a && ahead == some b) = true) :
    c = a ∧ ahead = some b := by
  simpa using h

namespace Lexeme

/-- Within a mark of two characters, the second of them comes next. -/
def Meets : Lexeme → Option Char → Prop
  | .lineOpening, next | .blockClosing, next => next = some '/'
  | .blockOpening, next => next = some '*'
  | _, _ => True

theorem meets_step (m : Lexeme) (c : Char) (ahead : Option Char) :
    (m.step c ahead).2.Meets ahead := by
  cases m with
  | code =>
      rw [step]
      split
      · next hmark => exact (eq_of_mark hmark).2
      split
      · next hmark => exact (eq_of_mark hmark).2
      split <;> trivial
  | quoted q =>
      rw [step]
      split
      · trivial
      · split <;> trivial
  | line =>
      rw [step]
      split <;> trivial
  | block =>
      rw [step]
      split
      · next hmark => exact (eq_of_mark hmark).2
      · trivial
  | escaped q => trivial
  | lineOpening => trivial
  | blockOpening => trivial
  | blockClosing => trivial

/-- A character of a comment becomes a blank, or stays the line break that it is. -/
theorem step_blanked (hmeets : m.Meets (some c)) (h : m.commented c ahead = true) :
    (m.step c ahead).1 = blanked c := by
  cases m with
  | code =>
      simp only [commented, Bool.and_eq_true, Bool.or_eq_true, beq_iff_eq] at h
      obtain ⟨rfl, rfl | rfl⟩ := h <;> rfl
  | line =>
      have hc : (c == '\n') = false := by simpa [commented] using h
      simp [step, blanked, hc]
  | block =>
      rw [step]
      split
      · next hmark =>
          obtain ⟨rfl, -⟩ := eq_of_mark hmark
          rfl
      · rfl
  | lineOpening =>
      cases hmeets
      rfl
  | blockOpening =>
      cases hmeets
      rfl
  | blockClosing =>
      cases hmeets
      rfl
  | quoted q => cases h
  | escaped q => cases h

end Lexeme

theorem length_commentsFrom (m : Lexeme) (cs : List Char) :
    (commentsFrom m cs).length = cs.length := by
  induction cs generalizing m with
  | nil => rfl
  | cons c cs ih => rw [commentsFrom, List.length_cons, ih, List.length_cons]

theorem blankFrom_eq_zipWith (h : m.Meets cs.head?) :
    blankFrom m cs =
      List.zipWith (fun c b => if b then blanked c else c) cs (commentsFrom m cs) := by
  induction cs generalizing m with
  | nil => rfl
  | cons c cs ih =>
      rw [blankFrom, commentsFrom, List.zipWith_cons_cons, ih (m.meets_step c cs.head?)]
      congr 1
      split
      · next hcomment => exact Lexeme.step_blanked h hcomment
      · next hfree => exact Lexeme.step_of_not_commented (Bool.eq_false_iff.mpr hfree)

/-- A place of the code, by the same place of the source. -/
theorem getElem?_blankComments {i : Nat} (hi : source[i]? = some c) :
    ∃ b, (comments source)[i]? = some b ∧
      (blankComments source)[i]? = some (if b then blanked c else c) := by
  have hlt : i < (comments source).length := by
    rw [comments, length_commentsFrom]
    exact (List.getElem?_eq_some_iff.mp hi).1
  have hb : (commentsFrom .code source)[i]? = some (comments source)[i] :=
    List.getElem?_eq_getElem hlt
  refine ⟨_, hb, ?_⟩
  rw [blankComments, blankFrom_eq_zipWith (by trivial), List.getElem?_zipWith, hi, hb]

theorem length_blankComments (source : List Char) :
    (blankComments source).length = source.length := by
  rw [blankComments, blankFrom_eq_zipWith (by trivial), List.length_zipWith, length_commentsFrom,
    Nat.min_self]

theorem blanked_eq_newline_iff : blanked c = '\n' ↔ c = '\n' := by
  rw [blanked]
  split <;> simp_all

theorem newline_blankComments (source : List Char) (i : Nat) :
    (blankComments source)[i]? = some '\n' ↔ source[i]? = some '\n' := by
  cases hi : source[i]? with
  | none =>
      have hlength : source.length ≤ i := List.getElem?_eq_none_iff.mp hi
      rw [← length_blankComments, ← List.getElem?_eq_none_iff] at hlength
      rw [hlength]
  | some c =>
      obtain ⟨b, -, hb⟩ := getElem?_blankComments hi
      rw [hb, Option.some_inj, Option.some_inj]
      cases b with
      | false => exact Iff.rfl
      | true => exact blanked_eq_newline_iff

/-! ## No comment is left -/

/-- What a character of the code belongs to, by what it belongs to in the source: a comment has
become a blank. -/
def Lexeme.visible : Lexeme → Lexeme
  | .quoted q => .quoted q
  | .escaped q => .escaped q
  | _ => .code

theorem Lexeme.code_step_of_isBlank (h : Text.isBlank c = true) :
    Lexeme.code.commented c ahead = false ∧ (Lexeme.code.step c ahead).2 = .code := by
  have hslash : c ≠ '/' := ne_of_isBlank h (by decide)
  rw [code_step_plain hslash (isQuote_of_isBlank h)]
  simp [commented, hslash]

theorem Lexeme.visible_of_commented (h : m.commented c ahead = true) :
    m.visible = .code ∧ (m.step c ahead).2.visible = .code := by
  cases m with
  | code =>
      simp only [commented, Bool.and_eq_true, Bool.or_eq_true, beq_iff_eq] at h
      obtain ⟨rfl, rfl | rfl⟩ := h <;> exact ⟨rfl, rfl⟩
  | line =>
      rw [step]
      split <;> exact ⟨rfl, rfl⟩
  | block =>
      rw [step]
      split <;> exact ⟨rfl, rfl⟩
  | lineOpening => exact ⟨rfl, rfl⟩
  | blockOpening => exact ⟨rfl, rfl⟩
  | blockClosing => exact ⟨rfl, rfl⟩
  | quoted q => cases h
  | escaped q => cases h

/-- The lexer of the code follows the lexer of the source and finds no comment, if what comes next in
the code and is no blank comes next in the source. -/
theorem Lexeme.visible_step (m : Lexeme) (c : Char)
    (hahead : ∀ d, ahead' = some d → Text.isBlank d = false → ahead = some d) :
    m.visible.commented (m.step c ahead).1 ahead' = false ∧
      (m.visible.step (m.step c ahead).1 ahead').2 = (m.step c ahead).2.visible := by
  by_cases hcomment : m.commented c ahead = true
  · obtain ⟨hvisible, hnext⟩ := visible_of_commented hcomment
    rw [hvisible, hnext]
    exact code_step_of_isBlank (step_of_commented hcomment)
  rw [Bool.not_eq_true] at hcomment
  rw [step_of_not_commented hcomment]
  cases m with
  | code =>
      have hmark {d : Char} (hd : Text.isBlank d = false)
          (hfree : (c == '/' && ahead == some d) = false) :
          (c == '/' && ahead' == some d) = false := by
        refine Bool.eq_false_iff.mpr fun hmark => Bool.eq_false_iff.mp hfree ?_
        obtain ⟨rfl, hnext⟩ := eq_of_mark hmark
        simpa using hahead d hnext hd
      rw [commented, Bool.and_or_distrib_left, Bool.or_eq_false_iff] at hcomment
      have hline := hmark (by decide) hcomment.1
      have hblock := hmark (by decide) hcomment.2
      refine ⟨?_, ?_⟩
      · show (c == '/' && (ahead' == some '/' || ahead' == some '*')) = false
        rw [Bool.and_or_distrib_left, hline, hblock, Bool.or_self]
      · simp only [visible, step, hline, hblock, hcomment, Bool.false_eq_true, if_false]
        split <;> rfl
  | quoted q =>
      refine ⟨rfl, ?_⟩
      simp only [visible, step]
      split
      · rfl
      · split <;> rfl
  | escaped q => exact ⟨rfl, rfl⟩
  | line =>
      have hc : c = '\n' := by simpa [commented] using hcomment
      subst hc
      exact ⟨rfl, rfl⟩
  | lineOpening => cases hcomment
  | blockOpening => cases hcomment
  | block => cases hcomment
  | blockClosing => cases hcomment

theorem not_commented_blankFrom (m : Lexeme) (cs : List Char) :
    ∀ b ∈ commentsFrom m.visible (blankFrom m cs), b = false := by
  induction cs generalizing m with
  | nil => exact List.forall_mem_nil _
  | cons c cs ih =>
      have hahead (d : Char) (hd : (blankFrom (m.step c cs.head?).2 cs).head? = some d)
          (hblank : Text.isBlank d = false) : cs.head? = some d := by
        rw [List.head?_eq_getElem?] at hd ⊢
        exact (getElem?_of_blankFrom hd hblank).1
      obtain ⟨hfree, hnext⟩ := m.visible_step c hahead
      rw [blankFrom, commentsFrom, hnext]
      exact List.forall_mem_cons.mpr ⟨hfree, ih _⟩

/-- A text without comments is left as it is. -/
theorem blankFrom_eq_self (h : ∀ b ∈ commentsFrom m cs, b = false) : blankFrom m cs = cs := by
  induction cs generalizing m with
  | nil => rfl
  | cons c cs ih =>
      rw [commentsFrom, List.forall_mem_cons] at h
      rw [blankFrom, Lexeme.step_of_not_commented h.1, ih h.2]

theorem blankComments_blankComments (source : List Char) :
    blankComments (blankComments source) = blankComments source :=
  blankFrom_eq_self (not_commented_blankFrom .code source)

/-! ## Other comments -/

/-- Whether a place lies in a comment, behind the mark that opens it. -/
def InComment (m : Lexeme) (cs : List Char) (i : Nat) : Prop :=
  (lexemesFrom m cs)[i]? = some .line ∨ (lexemesFrom m cs)[i]? = some .block

/-- Whether the mark that ends a block comment stands at a place. -/
def EndMark (cs : List Char) (i : Nat) : Prop := cs[i]? = some '*' ∧ cs[i + 1]? = some '/'

instance (m : Lexeme) (cs : List Char) (i : Nat) : Decidable (InComment m cs i) :=
  inferInstanceAs (Decidable (_ ∨ _))

instance (cs : List Char) (i : Nat) : Decidable (EndMark cs i) :=
  inferInstanceAs (Decidable (_ ∧ _))

theorem endMark_zero_iff :
    EndMark (c :: cs) 0 ↔ (c == '*' && cs.head? == some '/') = true := by
  simp [EndMark, List.head?_eq_getElem?]

/-- A text in which other characters than before stand in the comments, with the line breaks where
they were and no block comment that ends anywhere else. -/
structure Recommented (m : Lexeme) (cs cs' : List Char) : Prop where
  length_eq : cs'.length = cs.length
  outside : ∀ i < cs.length, ¬ InComment m cs i → cs'[i]? = cs[i]?
  newline : ∀ i < cs.length, cs'[i]? = some '\n' ↔ cs[i]? = some '\n'
  endMark : ∀ i < cs.length, (lexemesFrom m cs)[i]? = some .block → (EndMark cs' i ↔ EndMark cs i)

namespace Recommented

variable {c' : Char}

theorem tail (h : Recommented m (c :: cs) (c' :: cs')) :
    Recommented (m.step c cs.head?).2 cs cs' where
  length_eq := Nat.succ.inj h.length_eq
  outside i hi hfree := h.outside (i + 1) (Nat.succ_lt_succ hi) hfree
  newline i hi := h.newline (i + 1) (Nat.succ_lt_succ hi)
  endMark i hi hblock := h.endMark (i + 1) (Nat.succ_lt_succ hi) hblock

/-- What comes next is the same, unless it belongs to a comment. -/
theorem head?_eq (h : Recommented m cs cs') (hline : m ≠ .line) (hblock : m ≠ .block) :
    cs'.head? = cs.head? := by
  cases cs with
  | nil => rw [List.length_eq_zero_iff.mp h.length_eq]
  | cons c cs =>
      rw [List.head?_eq_getElem?, List.head?_eq_getElem?]
      refine h.outside 0 (Nat.zero_lt_succ _) ?_
      rintro (hin | hin)
      · exact hline (Option.some.inj hin)
      · exact hblock (Option.some.inj hin)

theorem step_eq (h : Recommented m (c :: cs) (c' :: cs')) :
    m.step c' cs'.head? = m.step c cs.head? := by
  have hsame (hline : m ≠ .line) (hblock : m ≠ .block) : c' = c :=
    Option.some.inj (h.head?_eq hline hblock)
  have hnewline : (c' == '\n') = (c == '\n') := by
    have hzero := h.newline 0 (Nat.zero_lt_succ _)
    rw [List.getElem?_cons_zero, List.getElem?_cons_zero, Option.some_inj, Option.some_inj] at hzero
    rw [Bool.eq_iff_iff, beq_iff_eq, beq_iff_eq, hzero]
  cases m with
  | code =>
      obtain rfl := hsame (by simp) (by simp)
      rw [h.tail.head?_eq]
      · rw [Lexeme.step]
        repeat' split
        all_goals simp
      · rw [Lexeme.step]
        repeat' split
        all_goals simp
  | line => simp only [Lexeme.step, hnewline]
  | block =>
      have hends : (c' == '*' && cs'.head? == some '/') = (c == '*' && cs.head? == some '/') := by
        rw [Bool.eq_iff_iff, ← endMark_zero_iff, ← endMark_zero_iff]
        exact h.endMark 0 (Nat.zero_lt_succ _) rfl
      simp only [Lexeme.step, hends, blanked, hnewline]
  | quoted q =>
      obtain rfl := hsame (by simp) (by simp)
      rfl
  | escaped q =>
      obtain rfl := hsame (by simp) (by simp)
      rfl
  | lineOpening => rfl
  | blockOpening => rfl
  | blockClosing => rfl

/-- What stands in the comments does not show in the code. -/
theorem blankFrom_eq (h : Recommented m cs cs') : blankFrom m cs' = blankFrom m cs := by
  induction cs generalizing m cs' with
  | nil => rw [List.length_eq_zero_iff.mp h.length_eq]
  | cons c cs ih =>
      obtain ⟨c', cs', rfl⟩ := List.exists_cons_of_length_eq_add_one h.length_eq
      rw [blankFrom, blankFrom, h.step_eq, ih h.tail]

end Recommented

/-! ## All of it -/

/-- The code has the length of the source, and at each place the source's character, or a space in a
comment; the line breaks stand where they stood. To blank the comments once more changes nothing, and
neither does it matter what other characters stand in the comments. -/
theorem blankComments_laws (source source' : List Char) :
    (blankComments source).length = source.length ∧
    (∀ (i : Nat) (c : Char), source[i]? = some c →
      ((blankComments source)[i]? = some c ∨ (blankComments source)[i]? = some ' ') ∧
      ∃ b : Bool, (comments source)[i]? = some b ∧
        (blankComments source)[i]? = some (if b then blanked c else c)) ∧
    (∀ i : Nat, (blankComments source)[i]? = some '\n' ↔ source[i]? = some '\n') ∧
    blankComments (blankComments source) = blankComments source ∧
    (Recommented .code source source' → blankComments source' = blankComments source) := by
  refine ⟨length_blankComments source, fun i c hi => ?_, newline_blankComments source,
    blankComments_blankComments source, Recommented.blankFrom_eq⟩
  obtain ⟨b, hcomment, hcode⟩ := getElem?_blankComments hi
  refine ⟨?_, b, hcomment, hcode⟩
  rw [hcode]
  cases b with
  | false => exact Or.inl rfl
  | true =>
      by_cases hc : c = '\n'
      · subst hc
        exact Or.inl rfl
      · exact Or.inr (by simp [blanked, hc])

/-- An apostrophe, a slash and a star do not open or end anything in a comment. -/
theorem blankComments_laws_of_marks_in_comments :
    let source := "a /* b\n*/ '//' // c d\n'e'".toList
    let source' := "a /*/*\n*/ '//' // ' *\n'e'".toList
    Recommented .code source source' ∧
      blankComments source' = blankComments source ∧
      blankComments source = "a     \n   '//'       \n'e'".toList := by
  intro source source'
  have h : Recommented .code source source' :=
    ⟨by decide +kernel, by decide +kernel, by decide +kernel, by decide +kernel⟩
  obtain ⟨-, -, -, -, hsame⟩ := blankComments_laws source source'
  exact ⟨h, hsame h, by decide +kernel⟩

end ScriptSandbox.Scan
