import ScriptSandbox.Proofs.Scan.Matches

/-!
# Statements that await, in pieces

A match of `awaitStatement` is a `Lead` and the word `await`. Code comes in pieces that end in a
semicolon or a brace, and no lead goes across such a mark unless its declaration does: then the code
up to the mark `Declares`, and what follows is `Assigned`, text that goes on to an equals sign and
what it awaits. So nothing is found in a piece that holds no such statement itself and is not
followed by what it declares (`awaiting_eq_none`). Where a lead begins, it is the only one
(`Lead.unique`).
-/

namespace ScriptSandbox.Scan

open Pattern

def endsPiece (c : Char) : Bool := c == ';' || c == '\x7b' || c == '\x7d'

/-- Whether a statement that awaits stands in a text, behind some code. -/
def Awaits (code text : List Char) : Prop :=
  ∃ front lead back, text = front ++ (lead ++ ("await".toList ++ back)) ∧ Lead lead ∧
    (∀ c, past none (code ++ front) = some c → c = '\n') ∧ back.head?.any Text.isWord = false

/-- Whether some code ends within a declaration, in the line of what it declares and before the
equals sign. -/
def Declares (code : List Char) : Prop :=
  ∃ front ind gap names w, code = front ++ (ind ++ (w.toList ++ (gap ++ names))) ∧
    (∀ c, past none front = some c → c = '\n') ∧ (∀ c ∈ ind, inIndent c = true) ∧
    w ∈ ["const", "let", "var"] ∧ AnyBlanks gap ∧ ∀ c ∈ names, c ≠ '=' ∧ c ≠ '\n'

/-- Whether a text goes on, within its line, to an equals sign and what it awaits. -/
def Assigned (text : List Char) : Prop :=
  ∃ names gap back, text = names ++ '=' :: (gap ++ ("await".toList ++ back)) ∧
    (∀ c ∈ names, c ≠ '=' ∧ c ≠ '\n') ∧ AnyBlanks gap ∧ back.head?.any Text.isWord = false

/-- Whether what some code declares is awaited in the text behind it. -/
def Crosses (code text : List Char) : Prop := Declares code ∧ Assigned text

variable {code lead lead' front rest more more' names gap : List Char} {d : Char}

theorem cases_endsPiece (hd : endsPiece d = true) : d = ';' ∨ d = '\x7b' ∨ d = '\x7d' := by
  simpa [endsPiece, or_assoc] using hd

theorem cases_keyword {w : String} (hw : w ∈ ["const", "let", "var"]) :
    w = "const" ∨ w = "let" ∨ w = "var" := by
  simpa using hw

theorem ne_of_endsPiece {c : Char} (hd : endsPiece d = true) (hc : endsPiece c = false) :
    d ≠ c := by
  rintro rfl
  rw [hc] at hd
  cases hd

theorem not_mem_await (hd : endsPiece d = true) : d ∉ "await".toList := by
  simp [ne_of_endsPiece hd (c := 'a') (by decide), ne_of_endsPiece hd (c := 'w') (by decide),
    ne_of_endsPiece hd (c := 'i') (by decide), ne_of_endsPiece hd (c := 't') (by decide)]

theorem not_mem_blanks (hd : endsPiece d = true) (hgap : AnyBlanks gap) : d ∉ gap := by
  intro hmem
  have hblank := hgap d hmem
  rcases cases_endsPiece hd with rfl | rfl | rfl <;> cases hblank

/-! ## Leads across marks -/

/-- What is assigned stands before a mark, or only its declaration goes across the mark. -/
theorem assigned_cut (hd : endsPiece d = true) (hgap : AnyBlanks gap)
    (h : names ++ '=' :: (gap ++ ("await".toList ++ more)) = front ++ d :: rest) :
    (∃ back, front = names ++ '=' :: (gap ++ ("await".toList ++ back)) ∧ more = back ++ d :: rest) ∨
      ∃ names', names = front ++ d :: names' ∧
        rest = names' ++ '=' :: (gap ++ ("await".toList ++ more)) := by
  rcases List.append_eq_append_iff.mp h with ⟨back, hfront, hmore⟩ | ⟨names', hnames, hrest⟩
  · have hfree : d ∉ '=' :: (gap ++ "await".toList) := by
      rw [List.mem_cons, List.mem_append, not_or, not_or]
      exact ⟨ne_of_endsPiece hd (by decide), not_mem_blanks hd hgap, not_mem_await hd⟩
    obtain ⟨back', rfl, rfl⟩ := exists_of_append_eq_append_cons
      (show '=' :: (gap ++ "await".toList) ++ more = back ++ d :: rest by rw [← hmore]; simp) hfree
    exact .inl ⟨back', by rw [hfront]; simp, rfl⟩
  · cases names' with
    | nil => exact absurd (List.cons.inj hrest).1 (ne_of_endsPiece hd (by decide))
    | cons e names' =>
        obtain ⟨rfl, hbehind⟩ := List.cons.inj hrest
        exact .inr ⟨names', hnames, hbehind⟩

/-- What is declared before a piece is awaited in it, or else behind its mark. -/
theorem Crosses.cut (hd : endsPiece d = true) (h : Crosses code (front ++ d :: rest)) :
    Crosses code front ∨ Crosses (code ++ (front ++ [d])) rest := by
  obtain ⟨hdeclares, names, gap, more, htext, hnames, hgap, hmore⟩ := h
  rcases assigned_cut hd hgap htext.symm with ⟨back, hfront, rfl⟩ | ⟨names', rfl, hrest⟩
  · exact .inl ⟨hdeclares, names, gap, back, hfront, hnames, hgap, any_head?_of_append hmore⟩
  · obtain ⟨before, ind, gap', declared, w, rfl, hstart, hind, hw, hgap', hdeclared⟩ := hdeclares
    have hpassed : ∀ c ∈ declared ++ (front ++ [d]), c ≠ '=' ∧ c ≠ '\n' := by
      intro c hc
      rcases List.mem_append.mp hc with hc | hc
      · exact hdeclared c hc
      · exact hnames c (by rw [List.append_cons]; exact List.mem_append_left names' hc)
    have hdeclares : Declares
        (before ++ (ind ++ (w.toList ++ (gap' ++ declared))) ++ (front ++ [d])) :=
      ⟨before, ind, gap', declared ++ (front ++ [d]), w, by simp, hstart, hind, hw, hgap', hpassed⟩
    refine .inr ⟨hdeclares, names', gap, more, hrest, fun c hc => hnames c ?_, hgap, hmore⟩
    exact List.mem_append_right _ (List.mem_cons_of_mem _ hc)

/-- Nothing is declared yet where the code begins. -/
theorem not_crosses_of_nil {text : List Char} : ¬ Crosses [] text := by
  rintro ⟨⟨front, ind, gap, names, w, hcode, -, -, hw, -⟩, -⟩
  rcases cases_keyword hw with rfl | rfl | rfl <;> simp at hcode

/-- A lead ends before a mark, or only its declaration goes across the mark. -/
theorem Lead.cut (h : Lead lead) (hd : endsPiece d = true)
    (hstart : ∀ c, past none code = some c → c = '\n')
    (hmore : more.head?.any Text.isWord = false)
    (heq : lead ++ ("await".toList ++ more) = front ++ d :: rest) :
    (∃ back, front = lead ++ ("await".toList ++ back) ∧ more = back ++ d :: rest) ∨
      Crosses (code ++ (front ++ [d])) rest := by
  have hindent {ind : List Char} (hind : ∀ c ∈ ind, inIndent c = true) : d ∉ ind := by
    intro hmem
    have hblank := hind d hmem
    rcases cases_endsPiece hd with rfl | rfl | rfl <;> cases hblank
  cases h with
  | plain hind =>
      have hfree : d ∉ lead ++ "await".toList := by
        rw [List.mem_append, not_or]
        exact ⟨hindent hind, not_mem_await hd⟩
      obtain ⟨back, rfl, rfl⟩ := exists_of_append_eq_append_cons
        (show lead ++ "await".toList ++ more = front ++ d :: rest by rw [← heq]; simp) hfree
      exact .inl ⟨back, by simp, rfl⟩
  | @declaring ind gap names gap' w hind hw hgap hnames hgap' =>
      have hword : d ∉ w.toList := by
        rcases cases_keyword hw with rfl | rfl | rfl <;>
          rcases cases_endsPiece hd with rfl | rfl | rfl <;> decide
      have hfree : d ∉ ind ++ (w.toList ++ gap) := by
        rw [List.mem_append, List.mem_append, not_or, not_or]
        exact ⟨hindent hind, hword, not_mem_blanks hd hgap⟩
      obtain ⟨front', rfl, hcut⟩ := exists_of_append_eq_append_cons
        (show ind ++ (w.toList ++ gap) ++ (names ++ '=' :: (gap' ++ ("await".toList ++ more))) =
          front ++ d :: rest by rw [← heq]; simp) hfree
      rcases assigned_cut hd hgap' hcut with ⟨back, rfl, rfl⟩ | ⟨names', rfl, hrest⟩
      · exact .inl ⟨back, by simp, rfl⟩
      · rw [List.append_cons] at hnames
        have hdeclares : Declares (code ++ (ind ++ (w.toList ++ gap) ++ front' ++ [d])) :=
          ⟨code, ind, gap, front' ++ [d], w, by simp, hstart, hind, hw, hgap,
            fun c hc => hnames c (List.mem_append_left _ hc)⟩
        exact .inr ⟨hdeclares, names', gap', more, hrest,
          fun c hc => hnames c (List.mem_append_right _ hc), hgap', hmore⟩

/-- Nothing that awaits begins in a piece that holds no such statement, unless what the code up to
its mark declares is awaited behind the mark. -/
theorem awaiting_eq_none (hd : endsPiece d = true) (hquiet : ¬ Awaits code front)
    (hrest : ¬ Crosses (code ++ (front ++ [d])) rest) {head tail : List Char}
    (hcut : front ++ [d] = head ++ tail) (htail : tail ≠ []) :
    awaiting ⟨past (past none code) head, tail ++ rest⟩ = none := by
  rw [Option.eq_none_iff_forall_ne_some]
  intro found hfound
  obtain ⟨hstart, lead, hlead, heq, hword, -⟩ := mem_awaitStatement (mem_of_awaiting hfound)
  rw [← past_append] at hstart
  obtain ⟨tail', e, rfl⟩ := (List.eq_nil_or_concat tail).resolve_left htail
  have hcut : front ++ [d] = head ++ tail' ++ [e] := by simpa using hcut
  obtain ⟨rfl, hde⟩ := List.append_inj' hcut rfl
  obtain rfl := List.singleton_inj.mp hde
  have heq : lead ++ ("await".toList ++ found.2.rest) = tail' ++ d :: rest := by
    simpa using heq.symm
  rcases hlead.cut hd hstart hword heq with ⟨back, rfl, hback⟩ | hcrosses
  · rw [hback] at hword
    exact hquiet ⟨head, lead, back, rfl, hlead, hstart, any_head?_of_append hword⟩
  · refine hrest ?_
    rw [List.append_assoc] at hcrosses
    rwa [List.append_assoc]

/-- Nor does anything that awaits begin in the last piece, if it holds no such statement. -/
theorem awaiting_eq_none_of_end {text head tail : List Char} (hquiet : ¬ Awaits code text)
    (hcut : text = head ++ tail) : awaiting ⟨past (past none code) head, tail⟩ = none := by
  rw [Option.eq_none_iff_forall_ne_some]
  intro found hfound
  obtain ⟨hstart, lead, hlead, heq, hword, -⟩ := mem_awaitStatement (mem_of_awaiting hfound)
  rw [← past_append] at hstart
  refine hquiet ⟨head, lead, found.2.rest, ?_, hlead, hstart, hword⟩
  rw [hcut]
  exact congrArg (head ++ ·) heq

/-! ## One lead -/

theorem eq_of_keyword {w w' : String} {back back' : List Char} (hw : w ∈ ["const", "let", "var"])
    (hw' : w' ∈ ["const", "let", "var"]) (h : w.toList ++ back = w'.toList ++ back') :
    back = back' := by
  have hfirst := congrArg List.head? h
  obtain rfl : w = w' := by
    rcases cases_keyword hw with rfl | rfl | rfl <;>
      rcases cases_keyword hw' with rfl | rfl | rfl <;> simp at hfirst ⊢
  exact List.append_cancel_left h

theorem eq_of_blanks_await {gap' : List Char} (hgap : AnyBlanks gap) (hgap' : AnyBlanks gap')
    (h : gap ++ ("await".toList ++ more) = gap' ++ ("await".toList ++ more')) : more = more' := by
  obtain ⟨-, -, hrest⟩ := eq_of_append_first hgap hgap' (by decide) (by decide) h
  exact (List.append_right_inj "wait".toList).mp hrest

theorem exists_keyword_cons {w : String} (hw : w ∈ ["const", "let", "var"]) :
    ∃ c cs, w.toList = c :: cs ∧ inIndent c = false ∧ c ≠ 'a' ∧ Text.isBlank c = false := by
  rcases cases_keyword hw with rfl | rfl | rfl
  · exact ⟨'c', "onst".toList, rfl, by decide, by decide, by decide⟩
  · exact ⟨'l', "et".toList, rfl, by decide, by decide, by decide⟩
  · exact ⟨'v', "ar".toList, rfl, by decide, by decide, by decide⟩

/-- There is one way to read a statement that awaits. -/
theorem Lead.unique (h : Lead lead) (h' : Lead lead')
    (heq : lead ++ ("await".toList ++ more) = lead' ++ ("await".toList ++ more')) :
    more = more' := by
  -- A line that begins with `await` does not begin with a keyword.
  have hmixed {ind ind' back more : List Char} {w : String} (hind : ∀ c ∈ ind, inIndent c = true)
      (hind' : ∀ c ∈ ind', inIndent c = true) (hw : w ∈ ["const", "let", "var"])
      (heq : ind ++ ("await".toList ++ more) = ind' ++ (w.toList ++ back)) : False := by
    obtain ⟨c, cs, hcs, hc, hne, -⟩ := exists_keyword_cons hw
    rw [hcs] at heq
    obtain ⟨-, hac, -⟩ := eq_of_append_first hind hind' (by decide) hc heq
    exact hne hac.symm
  cases h with
  | plain hind =>
      cases h' with
      | plain hind' =>
          obtain ⟨-, -, hrest⟩ := eq_of_append_first hind hind' (by decide) (by decide) heq
          exact (List.append_right_inj "wait".toList).mp hrest
      | declaring hind' hw' =>
          rw [List.append_assoc, List.append_assoc] at heq
          exact absurd heq (hmixed hind hind' hw')
  | @declaring ind gap names sep w hind hw hgap hnames hsep =>
      cases h' with
      | plain hind' =>
          rw [List.append_assoc, List.append_assoc] at heq
          exact absurd heq.symm (hmixed hind' hind hw)
      | @declaring ind' gap' names' sep' w' hind' hw' hgap' hnames' hsep' =>
          obtain ⟨c, cs, hcs, hc, -⟩ := exists_keyword_cons hw
          obtain ⟨c', cs', hcs', hc', -⟩ := exists_keyword_cons hw'
          have hplain {gap names : List Char} (hgap : AnyBlanks gap)
              (hnames : ∀ c ∈ names, c ≠ '=' ∧ c ≠ '\n') :
              ∀ c ∈ gap ++ names, (c != '=') = true := by
            intro c hmem
            rcases List.mem_append.mp hmem with hmem | hmem
            · exact bne_iff_ne.mpr (ne_of_isBlank (hgap c hmem) (by decide))
            · exact bne_iff_ne.mpr (hnames c hmem).1
          have hkeyword : w.toList ++ (gap ++ (names ++ '=' :: (sep ++ ("await".toList ++ more)))) =
              w'.toList ++ (gap' ++ (names' ++ '=' :: (sep' ++ ("await".toList ++ more')))) := by
            rw [hcs, hcs', List.append_assoc, List.append_assoc] at heq
            simp only [List.cons_append, List.append_assoc] at heq
            obtain ⟨-, rfl, hrest⟩ := eq_of_append_first hind hind' hc hc' heq
            rw [hcs, hcs', List.cons_append, List.cons_append, hrest]
          have hbehind := eq_of_keyword hw hw' hkeyword
          rw [← List.append_assoc, ← List.append_assoc gap'] at hbehind
          obtain ⟨-, -, hawait⟩ := eq_of_append_first (hplain hgap hnames) (hplain hgap' hnames')
            (by decide) (by decide) hbehind
          exact eq_of_blanks_await hsep hsep' hawait

/-- A lead begins within its line. -/
theorem Lead.no_break (h : Lead lead) (hgap : AnyBlanks gap) :
    lead ++ ("await".toList ++ more) ≠ gap ++ '\n' :: rest := by
  obtain ⟨ind, c, cs, heq, hind, hc⟩ : ∃ ind c cs,
      lead ++ ("await".toList ++ more) = ind ++ c :: cs ∧ (∀ c ∈ ind, inIndent c = true) ∧
        Text.isBlank c = false := by
    cases h with
    | plain hind => exact ⟨lead, 'a', _, rfl, hind, by decide⟩
    | @declaring ind gap' names sep w hind hw =>
        obtain ⟨c, cs, hcs, -, -, hc⟩ := exists_keyword_cons hw
        exact ⟨ind, c, cs ++ (gap' ++ (names ++ '=' :: (sep ++ ("await".toList ++ more)))),
          by rw [hcs]; simp, hind, hc⟩
  have hfree : '\n' ∉ ind := by
    intro hmem
    have hbreak := hind _ hmem
    cases hbreak
  intro hcut
  rw [heq] at hcut
  obtain ⟨between, hgap', hbehind⟩ := exists_of_append_eq_append_cons hcut hfree
  cases between with
  | nil =>
      rw [(List.cons.inj hbehind).1] at hc
      cases hc
  | cons d ds =>
      obtain ⟨rfl, -⟩ := List.cons.inj hbehind
      have hblank := hgap c (by rw [hgap']; simp)
      rw [hc] at hblank
      cases hblank

/-! ## A line that awaits -/

/-- What a line that awaits begins with: an indent, and perhaps a declaration of one name. -/
inductive Begins : List Char → Prop
  | plain {ind : List Char} (hind : ∀ c ∈ ind, inIndent c = true) : Begins ind
  | declaring {ind gap sep gap' : List Char} {w : String} (name : Name)
      (hind : ∀ c ∈ ind, inIndent c = true) (hw : w ∈ ["const", "let", "var"]) (hne : gap ≠ [])
      (hgap : AnyBlanks gap) (hsep : ∀ c ∈ sep, inIndent c = true) (hgap' : AnyBlanks gap') :
      Begins (ind ++ (w.toList ++ (gap ++ (name.1 ++ sep ++ '=' :: gap'))))

theorem ne_of_inIndent {c : Char} (h : inIndent c = true) : c ≠ '=' ∧ c ≠ '\n' := by
  simp only [inIndent, Bool.or_eq_true, beq_iff_eq] at h
  rcases h with rfl | rfl <;> decide

theorem name_plain (name : Name) {sep : List Char} (hsep : ∀ c ∈ sep, inIndent c = true) :
    ∀ c ∈ name.1 ++ sep, c ≠ '=' ∧ c ≠ '\n' := by
  intro c hmem
  rcases List.mem_append.mp hmem with hmem | hmem
  · have hname := name.2.2 c hmem
    exact ⟨ne_of_inName hname (by decide), ne_of_inName hname (by decide)⟩
  · exact ne_of_inIndent (hsep c hmem)

theorem Begins.toLead (h : Begins lead) : Lead lead := by
  cases h with
  | plain hind => exact .plain hind
  | declaring name hind hw _ hgap hsep hgap' =>
      exact .declaring hind hw hgap (name_plain name hsep) hgap'

theorem passes_declared {b : Option Char} (hne : gap ≠ []) (hgap : AnyBlanks gap)
    (hnames : names ≠ []) (hfirst : ∀ c ∈ names.head?, Text.isBlank c = false)
    (hplain : ∀ c ∈ names, c ≠ '=' ∧ c ≠ '\n') :
    Passes declared b (gap ++ (names ++ ['='])) rest := by
  have htext : gap ++ (names ++ ['=']) ++ rest = gap ++ (names ++ '=' :: rest) := by simp
  have hcore : run Text.isBlank ⟨b, gap ++ (names ++ '=' :: rest)⟩ =
      ⟨past b gap, names ++ '=' :: rest⟩ := by
    refine run_go_append hgap fun c hc => hfirst c ?_
    cases names with
    | nil => exact absurd rfl hnames
    | cons d ds => exact hc
  have hstop : run (fun c => c != '=' && c != '\n') ⟨past b gap, names ++ '=' :: rest⟩ =
      ⟨past (past b gap) names, '=' :: rest⟩ := by
    refine run_go_append (fun c hc => by simp [hplain c hc]) fun c hc => ?_
    rw [← Option.some.inj hc]
    rfl
  have hgapped : 1 ≤ gap.length := List.length_pos_of_ne_nil hne
  have hcount : (gap ++ (names ++ '=' :: rest)).length - (names ++ '=' :: rest).length =
      gap.length := by
    rw [List.length_append, Nat.add_sub_cancel]
  rw [Passes, htext, declared]
  simp only [hcore, hstop, hcount]
  simp [hgapped, hnames, one]

theorem Begins.passes {b : Option Char} (h : Begins lead) (hb : ∀ c, b = some c → c = '\n')
    (hrest : rest.head?.any Text.isWord = false) :
    Passes awaitStatement b (lead ++ "await".toList) rest := by
  have hawait (b : Option Char) :
      Passes (all [word "await", boundary]) b ("await".toList ++ []) rest := by
    refine passes_all_cons (passes_word rfl) (passes_all_one (passes_boundary ?_))
    have hword : (past b "await".toList).any Text.isWord = true := by
      rw [past_eq_getLast? (by decide)]
      decide
    rw [hrest, hword]
    decide
  have hindent {ind cs : List Char} (hind : ∀ c ∈ ind, inIndent c = true)
      (hcs : ∀ c ∈ cs.head?, inIndent c = false) : Passes indent b ind cs :=
    passes_many hind hcs
  cases h with
  | plain hind =>
      refine passes_all_zero (passes_lineStart hb) (passes_all_cons (hindent hind ?_)
        (passes_all_zero passes_opt_nil ?_))
      · intro c hc
        rw [← Option.some.inj hc]
        decide
      · have hend := hawait (past b lead)
        rwa [List.append_nil] at hend
  | @declaring ind gap sep gap' w name hind hw hne hgap hsep hgap' =>
      obtain ⟨c, cs, hcs, hc, -⟩ := exists_keyword_cons hw
      have hkeyword (b : Option Char) (rest : List Char) :
          Passes (alt (word "const") (alt (word "let") (word "var"))) b w.toList rest := by
        rcases cases_keyword hw with rfl | rfl | rfl
        · exact (passes_word rfl).alt_left
        · exact (passes_word rfl).alt_left.alt_right
        · exact (passes_word rfl).alt_right.alt_right
      have hdeclared (b : Option Char) (rest : List Char) :
          Passes declared b (gap ++ (name.1 ++ sep ++ ['='])) rest := by
        refine passes_declared hne hgap (by simp [name.2.1]) (fun c hc => ?_) (name_plain name hsep)
        obtain ⟨d, ds, hname⟩ := List.exists_cons_of_ne_nil name.2.1
        rw [hname] at hc
        rw [← Option.some.inj hc]
        exact isBlank_of_inName (name.2.2 d (hname ▸ List.mem_cons_self ..))
      have hlead : ind ++ (w.toList ++ (gap ++ (name.1 ++ sep ++ '=' :: gap'))) ++ "await".toList =
          ind ++ ((w.toList ++ (gap ++ (name.1 ++ sep ++ ['=']) ++ gap')) ++
            ("await".toList ++ [])) := by simp
      rw [hlead]
      refine passes_all_zero (passes_lineStart hb) (passes_all_cons (hindent hind ?_)
        (passes_all_cons (Passes.opt ?_) (hawait _)))
      · intro d hd
        rw [hcs] at hd
        rw [← Option.some.inj hd]
        exact hc
      · refine passes_all_cons (hkeyword _ _) (passes_all_cons (hdeclared _ _)
          (passes_all_one (passes_many hgap' fun d hd => ?_)))
        rw [← Option.some.inj hd]
        decide

theorem Begins.awaiting_eq {b : Option Char} (h : Begins lead) (hb : ∀ c, b = some c → c = '\n')
    (hrest : rest.head?.any Text.isWord = false) :
    awaiting ⟨b, lead ++ "await".toList ++ rest⟩ =
      some ((), ⟨past b (lead ++ "await".toList), rest⟩) := by
  obtain ⟨e, he⟩ : ∃ e, (awaitStatement ⟨b, lead ++ "await".toList ++ rest⟩).head? = some e := by
    rw [← Option.isSome_iff_exists, List.isSome_head?]
    exact List.ne_nil_of_mem (h.passes hb hrest)
  obtain ⟨-, lead', hlead', heq, -, hbefore⟩ := mem_awaitStatement (List.mem_of_mem_head? he)
  have hrest' : e.rest = rest := by
    refine hlead'.unique h.toLead (heq.symm.trans ?_)
    simp
  have hpast : past b (lead ++ "await".toList) = some 't' := by
    rw [past_append]
    rfl
  rw [awaiting, he, hpast, ← hbefore, ← hrest']
  rfl

/-- A line that awaits, with the blanks before it: the search finds where the line begins, and
nothing else of it. -/
theorem Begins.finds {b : Option Char} {offset : Nat} {tail : List Char} (h : Begins lead)
    (hgap : AnyBlanks gap) (hbreak : ∀ c ∈ gap.getLast?, c = '\n')
    (hb : gap = [] → ∀ c, b = some c → c = '\n') (htail : '\n' ∉ tail)
    (hword : ∃ c ∈ tail.head?, Text.isWord c = false) :
    Finds awaiting rest b offset (gap ++ (lead ++ "await".toList ++ tail))
      [(offset + gap.length, ())] := by
  have hstart : ∀ c, past b gap = some c → c = '\n' := by
    by_cases hnil : gap = []
    · subst hnil
      exact hb rfl
    · intro c hc
      rw [past_eq_getLast? hnil] at hc
      exact hbreak c hc
  have hbefore : Finds awaiting (lead ++ "await".toList ++ tail ++ rest) b offset gap [] := by
    refine finds_none fun front back hcut hne => ?_
    rw [Option.eq_none_iff_forall_ne_some]
    intro found hfound
    obtain ⟨-, lead', hlead', heq, -⟩ := mem_awaitStatement (mem_of_awaiting hfound)
    obtain ⟨back', c, rfl⟩ := (List.eq_nil_or_concat back).resolve_left hne
    have hgap' : gap = front ++ back' ++ [c] := by simpa using hcut
    obtain rfl : c = '\n' := hbreak c (by rw [hgap']; simp)
    have hcut' : lead' ++ ("await".toList ++ found.2.rest) =
        back' ++ '\n' :: (lead ++ "await".toList ++ tail ++ rest) := by
      rw [← heq]
      simp
    refine hlead'.no_break (fun d hd => hgap d ?_) hcut'
    rw [hgap']
    simp [hd]
  have hbehind : Finds awaiting rest (past (past b gap) (lead ++ "await".toList))
      (offset + gap.length + (lead ++ "await".toList).length) tail [] := by
    refine finds_none fun front back hcut hne => ?_
    rw [Option.eq_none_iff_forall_ne_some]
    intro found hfound
    have hline := (mem_awaitStatement (mem_of_awaiting hfound)).1
    by_cases hnil : front = []
    · subst hnil
      have hlast : past (past b gap) (lead ++ "await".toList) = some 't' := by
        rw [past_append]
        rfl
      exact absurd (hline 't' hlast) (by decide)
    · rw [past_eq_getLast? hnil] at hline
      have hlast := List.getLast?_eq_some_getLast hnil
      refine htail ?_
      rw [hcut, ← hline _ hlast]
      exact List.mem_append_left _ (List.getLast_mem hnil)
  refine hbefore.append (.hit (by simp) ?_ hbehind)
  refine h.awaiting_eq hstart ?_
  obtain ⟨c, hc, hfalse⟩ := hword
  cases tail with
  | nil => cases hc
  | cons d ds =>
      obtain rfl := Option.some.inj hc
      exact hfalse

end ScriptSandbox.Scan
