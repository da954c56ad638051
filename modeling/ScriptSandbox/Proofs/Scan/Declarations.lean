import ScriptSandbox.Proofs.Scan.Decision
import ScriptSandbox.Proofs.Scan.Forms

/-!
# Declarations that make a source a module

A static import or an export is looked for where lines begin. So a source is taken for a module if
one of its declarations stands first in its line, with nothing but spaces, tabs and comments before
it there, whatever the statements before it are and whatever stands behind it
(`hasModuleSyntax_of_declaration`). A declaration behind another statement of its line is not looked
at (`declaration_within_line`).
-/

namespace ScriptSandbox.Scan

open Pattern

/-! ## Closed code -/

/-- Code whose strings and comments are all closed. -/
inductive Code : List Char → Prop
  | nil : Code []
  | plain {c : Char} {cs : List Char} (hslash : c ≠ '/') (hquote : isQuote c = false)
      (h : Code cs) : Code (c :: cs)
  | slash {c : Char} {cs : List Char} (hline : c ≠ '/') (hblock : c ≠ '*')
      (h : Code (c :: cs)) : Code ('/' :: c :: cs)
  | string {κ : Char} {inside cs : List Char} (hκ : isQuote κ = true) (hinside : Inside κ inside)
      (h : Code cs) : Code (κ :: (inside ++ κ :: cs))
  | line {text cs : List Char} (htext : '\n' ∉ text) (h : Code cs) :
      Code ('/' :: '/' :: (text ++ '\n' :: cs))
  | block {text cs : List Char} (htext : ¬ ['*', '/'] <:+: text) (h : Code cs) :
      Code ('/' :: '*' :: (text ++ '*' :: '/' :: cs))

variable {κ c : Char} {cs ds rest g : List Char}

/-- Closed code is read as a whole. -/
theorem Code.reads (h : Code cs) : ∃ out, Reads cs out := by
  induction h with
  | nil => exact ⟨[], reads_nil⟩
  | plain hslash hquote _ ih =>
      obtain ⟨out, hout⟩ := ih
      exact ⟨_, (reads_plain (List.forall_mem_singleton.mpr ⟨hslash, hquote⟩)).append hout⟩
  | slash hline hblock _ ih =>
      obtain ⟨out, hout⟩ := ih
      exact ⟨_, reads_slash hline hblock hout⟩
  | @string κ inside cs hκ hinside _ ih =>
      obtain ⟨out, hout⟩ := ih
      exact ⟨κ :: (inside ++ [κ]) ++ out, by simpa using (reads_string hκ hinside).append hout⟩
  | @line text cs htext _ ih =>
      obtain ⟨out, hout⟩ := ih
      obtain ⟨blanks, -, -, hgap⟩ := AnyGap.reads (.line htext .nil)
      exact ⟨blanks ++ out, by simpa using hgap.append hout⟩
  | @block text cs htext _ ih =>
      obtain ⟨out, hout⟩ := ih
      obtain ⟨blanks, -, -, hgap⟩ := AnyGap.reads (.block htext .nil)
      exact ⟨blanks ++ out, by simpa using hgap.append hout⟩

theorem Code.append (h : Code cs) (hds : Code ds) : Code (cs ++ ds) := by
  induction h with
  | nil => exact hds
  | plain hslash hquote _ ih => exact .plain hslash hquote ih
  | slash hline hblock _ ih => exact .slash hline hblock ih
  | string hκ hinside _ ih =>
      rw [List.cons_append, List.append_assoc]
      exact .string hκ hinside ih
  | line htext _ ih =>
      rw [List.cons_append, List.cons_append, List.append_assoc]
      exact .line htext ih
  | block htext _ ih =>
      rw [List.cons_append, List.cons_append, List.append_assoc]
      exact .block htext ih

theorem code_of_plain (h : ∀ c ∈ cs, c ≠ '/' ∧ isQuote c = false) : Code cs := by
  induction cs with
  | nil => exact .nil
  | cons c cs ih =>
      rw [List.forall_mem_cons] at h
      exact .plain h.1.1 h.1.2 (ih h.2)

theorem code_of_gap (hg : AnyGap g) : Code g := by
  induction hg with
  | nil => exact .nil
  | blank hc _ ih => exact .plain (ne_of_isBlank hc (by decide)) (isQuote_of_isBlank hc) ih
  | line htext _ ih => exact .line htext ih
  | block htext _ ih => exact .block htext ih

theorem code_of_token (t : Token) : Code t.text := by
  cases t with
  | word n => exact code_of_plain fun c hc =>
      ⟨ne_of_inName (n.2.2 c hc) (by decide), isQuote_of_inName (n.2.2 c hc)⟩
  | mark m =>
      refine code_of_plain (List.forall_mem_singleton.mpr ?_)
      cases m <;> decide
  | literal q => exact .string q.isQuote q.inside .nil

theorem code_of_spread {ts : List Token} {afterWord : Bool} (h : Spread AnyGap afterWord ts cs) :
    Code cs := by
  induction h with
  | nil afterWord => exact .nil
  | cons hg _ _ ih => exact (code_of_gap hg).append ((code_of_token _).append ih)

/-! ## Statements -/

/-- A statement, given what separates it from the next. -/
inductive Statement (sep : Char) : List Char → Prop
  | importing {f : Form} {q : Literal} {cs g : List Char} (hf : f.isImport = true)
      (h : Spread AnyGap false (f.tokens q) cs) (hg : AnyGap g) : Statement sep (cs ++ g)
  | exporting {c : Char} {cs : List Char} (hc : Text.isWord c = false)
      (h : Code (c :: (cs ++ [sep]))) : Statement sep ("export".toList ++ c :: cs)
  | other {cs : List Char} (hquote : ∀ c ∈ cs, isQuote c = false)
      (hline : ¬ ['/', '/'] <:+: cs) (hblock : ¬ ['/', '*'] <:+: cs) : Statement sep cs

/-- Statements with gaps before them, each with a separator behind it. -/
inductive Statements : List Char → Prop
  | nil : Statements []
  | cons {g cs more : List Char} {sep : Char} (hg : AnyGap g) (h : Statement sep cs)
      (hsep : sep = ';' ∨ sep = '\n') (hmore : Statements more) :
      Statements (g ++ (cs ++ sep :: more))

/-- A static import or an export, from its word on. -/
inductive Declaration : List Char → Prop
  | importing {f : Form} {q : Literal} {cs : List Char} (hf : f.isImport = true)
      (h : Spread AnyGap false (f.tokens q) ("import".toList ++ cs)) :
      Declaration ("import".toList ++ cs)
  | exporting {c : Char} {cs : List Char} (hc : Text.isWord c = false) :
      Declaration ("export".toList ++ c :: cs)

theorem Statement.code {sep : Char} (h : Statement sep cs) (hsep : sep = ';' ∨ sep = '\n') :
    Code (cs ++ [sep]) := by
  have hplain : sep ≠ '/' ∧ sep ≠ '*' ∧ isQuote sep = false := by
    rcases hsep with rfl | rfl <;> decide
  have hend : Code [sep] := .plain hplain.1 hplain.2.2 .nil
  cases h with
  | importing _ h hg => exact ((code_of_spread h).append (code_of_gap hg)).append hend
  | exporting _ h =>
      have hword : Code "export".toList := code_of_token (.word .exportWord)
      rw [List.append_assoc]
      exact hword.append h
  | other hquote hline hblock =>
      induction cs with
      | nil => exact hend
      | cons c cs ih =>
          rw [List.forall_mem_cons] at hquote
          have hmore := ih hquote.2 (fun h => hline (h.trans (List.suffix_cons c cs).isInfix))
            fun h => hblock (h.trans (List.suffix_cons c cs).isInfix)
          by_cases hc : c = '/'
          · subst hc
            cases cs with
            | nil => exact .slash hplain.1 hplain.2.1 hmore
            | cons d cs =>
                refine .slash ?_ ?_ hmore
                · rintro rfl
                  exact hline (List.prefix_append ['/', '/'] cs).isInfix
                · rintro rfl
                  exact hblock (List.prefix_append ['/', '*'] cs).isInfix
          · exact .plain hc hquote.1 hmore

theorem Statements.code (h : Statements cs) : Code cs := by
  induction h with
  | nil => exact .nil
  | @cons g cs more sep hg h hsep _ ih =>
      have hstatement := (h.code hsep).append ih
      rw [List.append_assoc, List.singleton_append] at hstatement
      exact (code_of_gap hg).append hstatement

/-! ## Lines -/

def inIndent (c : Char) : Bool := c == ' ' || c == '\t'

/-- Whether the place after some code is first in its line: only spaces and tabs stand before it
there. -/
def margin (code : List Char) : Bool := (code.reverse.dropWhile inIndent).head?.all (· == '\n')

theorem exists_of_margin (h : margin cs = true) :
    ∃ before indent, cs = before ++ indent ∧ (∀ c ∈ indent, inIndent c = true) ∧
      ∀ c, past none before = some c → c = '\n' := by
  have hcs := congrArg List.reverse
    (List.takeWhile_append_dropWhile (p := inIndent) (l := cs.reverse))
  rw [List.reverse_append, List.reverse_reverse] at hcs
  refine ⟨_, _, hcs.symm, fun c hc => List.mem_takeWhile_imp (List.mem_reverse.mp hc), ?_⟩
  rw [margin] at h
  generalize cs.reverse.dropWhile inIndent = back at h
  cases back with
  | nil => exact fun c hc => by cases hc
  | cons d ds =>
      have hd : d = '\n' := by simpa using h
      intro c hc
      rw [List.reverse_cons, past_append] at hc
      exact (Option.some.inj hc).symm.trans hd

theorem passes_lineStart {b : Option Char} (hb : ∀ c, b = some c → c = '\n') :
    Passes lineStart b [] rest := by
  cases b with
  | none => exact List.mem_singleton.mpr rfl
  | some c =>
      obtain rfl := hb c rfl
      exact List.mem_singleton.mpr rfl

/-! ## The decision -/

def declaration : Pattern :=
  alt (all [word "import", boundary, blanks, one afterImport]) (all [word "export", boundary])

theorem matchesSomewhere_of_mem {p : Pattern} {b : Option Char} {front back : List Char} {s : Spot}
    (h : s ∈ p ⟨past b front, back⟩) : matchesSomewhere p b (front ++ back) = true := by
  induction front generalizing b with
  | nil =>
      have hne : (p ⟨b, back⟩).isEmpty = false := by
        rw [List.isEmpty_eq_false_iff]
        exact List.ne_nil_of_mem h
      rw [List.nil_append]
      cases back <;> simp [matchesSomewhere, hne]
  | cons c cs ih => simp [matchesSomewhere, ih h]

/-- The word of an import is followed by a name, a mark or quotes. -/
theorem Form.next_of_isImport {f : Form} (hf : f.isImport = true) (q : Literal) :
    ∃ t ts c cs, f.tokens q = .word .importWord :: t :: ts ∧ t.text = c :: cs ∧
      afterImport c = true := by
  have hname (n : Name) : ∃ c cs, (Token.word n).text = c :: cs ∧ afterImport c = true := by
    obtain ⟨c, cs, hn⟩ := List.exists_cons_of_ne_nil n.2.1
    have hc : inName c = true := n.2.2 c (hn ▸ List.mem_cons_self ..)
    exact ⟨c, cs, hn, by simp [afterImport, hc]⟩
  cases f with
  | effect =>
      refine ⟨.literal q, [], q.quote, _, rfl, rfl, ?_⟩
      have hquote := q.isQuote
      simp only [isQuote, Bool.or_eq_true, beq_iff_eq] at hquote
      rcases hquote with (h | h) | h <;> rw [h] <;> decide
  | default id =>
      obtain ⟨c, cs, htext, hc⟩ := hname id
      exact ⟨.word id, _, c, cs, rfl, htext, hc⟩
  | names ns =>
      cases ns with
      | whole id => exact ⟨.mark .star, _, '*', [], rfl, rfl, by decide⟩
      | listed items => exact ⟨.mark .braceOpen, _, '\x7b', [], rfl, rfl, by decide⟩
  | both id ns =>
      obtain ⟨c, cs, htext, hc⟩ := hname id
      exact ⟨.word id, _, c, cs, rfl, htext, hc⟩
  | _ => cases hf

theorem spread_behind_word {n : Name} {ts : List Token}
    (h : Spread AnyGap false (.word n :: ts) (n.1 ++ cs)) : Spread AnyGap true ts cs := by
  obtain ⟨g, more, heq, hg, -, hmore⟩ := Spread.cons_iff.mp h
  obtain ⟨c, ds, hn⟩ := List.exists_cons_of_ne_nil n.2.1
  have hc : inName c = true := n.2.2 c (hn ▸ List.mem_cons_self ..)
  have hhead : (g ++ ((Token.word n).text ++ more)).head? = some c := by
    rw [← heq, hn]
    rfl
  cases hg with
  | nil =>
      obtain rfl := List.append_cancel_left heq
      exact hmore
  | blank hblank _ =>
      obtain rfl := Option.some.inj hhead
      rw [inName_of_isBlank hblank] at hc
      cases hc
  | line _ _ =>
      obtain rfl := Option.some.inj hhead
      cases hc
  | block _ _ =>
      obtain rfl := Option.some.inj hhead
      cases hc

/-- Where no word begins none begins without comments. -/
theorem isWord_step (hc : Text.isWord c = false) (ahead : Option Char) :
    Text.isWord (Lexeme.code.step c ahead).1 = false := by
  have hspace : Text.isWord ' ' = false := by decide
  rw [Lexeme.step]
  split_ifs
  · exact hspace
  · exact hspace
  · exact hc
  · exact hc

/-- Without its comments a declaration still begins as one, whatever stands behind it. -/
theorem Declaration.passes {d : List Char} (h : Declaration d) (back : List Char) :
    ∃ head rest, blankFrom .code (d ++ back) = head ++ rest ∧
      (∃ c ∈ head.head?, inIndent c = false) ∧ ∀ b, Passes declaration b head rest := by
  cases h with
  | @importing f q cs hf h =>
      obtain ⟨t, ts, d, ds, htokens, htext, hd⟩ := Form.next_of_isImport hf q
      rw [htokens] at h
      have hmore := spread_behind_word h
      obtain ⟨out, hout, hread⟩ := hmore.blanked
      obtain ⟨g, more, rfl, hg, hapart, -⟩ := Spread.cons_iff.mp hout
      refine ⟨"import".toList ++ (g ++ [d]), ds ++ (more ++ blankFrom .code back), ?_,
        ⟨'i', rfl, rfl⟩, fun b => .alt_left ?_⟩
      · have hword : Reads "import".toList "import".toList := Token.reads (.word .importWord)
        rw [(hword.append hread) back, htext]
        simp
      · have hnext : [d] ++ (ds ++ (more ++ blankFrom .code back)) =
            t.text ++ (more ++ blankFrom .code back) := by simp [htext]
        refine passes_all_cons (passes_word rfl) (passes_all_zero ?_ (passes_all_cons ?_
          (passes_all_one (passes_one hd))))
        · rw [List.append_assoc, hnext]
          exact passes_boundary_after rfl (by decide) hg (hapart rfl)
        · rw [hnext]
          exact passes_blanks hg
  | @exporting c cs hc =>
      refine ⟨"export".toList, blankFrom .code (c :: (cs ++ back)), ?_, ⟨'e', rfl, rfl⟩,
        fun b => .alt_right ((passes_word rfl).seq_nil (passes_all_one ?_))⟩
      · have hword : Reads "export".toList "export".toList := Token.reads (.word .exportWord)
        rw [List.append_assoc, hword]
        rfl
      · refine passes_boundary ?_
        have hword : Text.isWord 't' = true := by decide
        simp [blankFrom, isWord_step hc, hword]

/-- A source is a module if a static import or an export stands first in a line of it, with nothing
but spaces, tabs and comments before it there. -/
theorem hasModuleSyntax_of_declaration {statements g d back : List Char} {source : String}
    (hstatements : Statements statements) (hg : AnyGap g) (hd : Declaration d)
    (hsource : source.toList = statements ++ g ++ (d ++ back))
    (hline : margin (blankComments (statements ++ g)) = true) :
    hasModuleSyntax source = .ok true := by
  obtain ⟨out, hout⟩ := (hstatements.code.append (code_of_gap hg)).reads
  have hbefore : blankComments (statements ++ g) = out := by
    have hbefore := hout []
    rwa [List.append_nil, blankFrom, List.append_nil] at hbefore
  obtain ⟨head, rest, hhead, ⟨c, hc, hindent⟩, hpasses⟩ := hd.passes back
  have hcode : blankComments source.toList = out ++ (head ++ rest) := by
    rw [hsource, blankComments, hout, hhead]
  rw [hbefore] at hline
  obtain ⟨before, indentation, rfl, hindented, hstart⟩ := exists_of_margin hline
  have hmodule : Passes moduleOnly (past none before) (indentation ++ head) rest := by
    refine .alt_left (passes_all_zero (passes_lineStart hstart) (passes_all_cons
      (passes_many hindented fun e he => ?_) (passes_all_one (hpasses _))))
    cases head with
    | nil => cases hc
    | cons d ds =>
        obtain rfl := (Option.some.inj he).symm.trans (Option.some.inj hc)
        exact hindent
  rw [Passes, List.append_assoc] at hmodule
  have hmatches := matchesSomewhere_of_mem hmodule
  rw [← List.append_assoc, ← hcode] at hmatches
  rw [hasModuleSyntax_eq, if_pos hmatches]

/-- An export behind a comment, in the line behind that of a statement with a division. -/
theorem hasModuleSyntax_of_indented_export :
    let statements := "half = a / 2;\n".toList
    let g := "\t/* ' */ ".toList
    let d := "export \x7b half \x7d".toList
    Statements statements ∧ AnyGap g ∧ Declaration d ∧
      margin (blankComments (statements ++ g)) = true ∧
      hasModuleSyntax "half = a / 2;\n\t/* ' */ export \x7b half \x7d; f()" = .ok true := by
  intro statements g d
  have hdivision : Statement ';' "half = a / 2".toList :=
    .other (by simp [isQuote]) (by decide) (by decide)
  have hempty : Statement '\n' [] := .other (List.forall_mem_nil _) (by decide) (by decide)
  have hstatements : Statements statements :=
    .cons .nil hdivision (.inl rfl) (.cons .nil hempty (.inr rfl) .nil)
  have hcomment : AnyGap ('/' :: '*' :: (" ' ".toList ++ '*' :: '/' :: [' '])) :=
    .block (by decide) (.blank (by decide) .nil)
  have hg : AnyGap g := .blank (by decide) hcomment
  have hspace : Text.isWord ' ' = false := by decide
  have hd : Declaration d := .exporting hspace
  have hline : margin (blankComments (statements ++ g)) = true := by decide +kernel
  have hsource : "half = a / 2;\n\t/* ' */ export \x7b half \x7d; f()".toList =
      statements ++ g ++ (d ++ "; f()".toList) := by decide +kernel
  exact ⟨hstatements, hg, hd, hline, hasModuleSyntax_of_declaration hstatements hg hd hsource hline⟩

/-- A declaration that stands behind another statement in its line is not looked at. -/
theorem declaration_within_line :
    Statements "const a = 1;".toList ∧ AnyGap [' '] ∧ Declaration "export \x7b a \x7d;".toList ∧
      hasModuleSyntax "const a = 1; export \x7b a \x7d;" = .ok false ∧
      hasModuleSyntax "const a = 1;\nexport \x7b a \x7d;" = .ok true := by
  have hconst : Statement ';' "const a = 1".toList :=
    .other (by simp [isQuote]) (by decide) (by decide)
  have hspace : Text.isWord ' ' = false := by decide
  exact ⟨.cons .nil hconst (.inl rfl) .nil, .blank (by decide) .nil, .exporting hspace,
    by decide +kernel, by decide +kernel⟩

end ScriptSandbox.Scan
