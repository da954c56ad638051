import ScriptSandbox.Proofs.Scan.Leads
import ScriptSandbox.Proofs.Scan.Literals

/-!
# Plain texts

What statements and heads are made of: strings and braces are closed, there are no comments,
`import` is only called, and `export` is no word. Comments are blanked from such a text without
effect (`Flat.reads`), and it holds no syntax of modules only (`Plain.moduleOnly_eq_nil`).
-/

namespace ScriptSandbox.Scan

open Pattern

/-- Whether a word stands in a text. -/
def HasWord (w : String) (text : List Char) : Prop :=
  ∃ front back, text = front ++ (w.toList ++ back) ∧
    (past none front).any Text.isWord = false ∧ back.head?.any Text.isWord = false

/-- Whether the word `import` begins nothing but calls in a text. -/
def Calls (text : List Char) : Prop :=
  ∀ front back, text = front ++ ("import".toList ++ back) →
    (past none front).any Text.isWord = false → back.head?.any Text.isWord = false →
      ∃ gap more, back = gap ++ '(' :: more ∧ AnyBlanks gap

/-- Text without comments whose strings are closed, and so are the braces outside the strings. -/
inductive Flat : List Char → Prop
  | nil : Flat []
  | plain {c : Char} {cs : List Char} (hslash : c ≠ '/') (hquote : isQuote c = false)
      (hbrace : isBrace c = false) (h : Flat cs) : Flat (c :: cs)
  | slash {c : Char} {cs : List Char} (hline : c ≠ '/') (hblock : c ≠ '*')
      (h : Flat (c :: cs)) : Flat ('/' :: c :: cs)
  | string {κ : Char} {inside cs : List Char} (hκ : isQuote κ = true) (hinside : Inside κ inside)
      (h : Flat cs) : Flat (κ :: (inside ++ κ :: cs))
  | braces {inside cs : List Char} (hinside : Flat inside) (h : Flat cs) :
      Flat ('\x7b' :: (inside ++ '\x7d' :: cs))

/-- Text of statements and heads. -/
structure Plain (text : List Char) : Prop where
  flat : Flat text
  calls : Calls text
  no_export : ¬ HasWord "export" text

variable {text rest front back : List Char} {b : Option Char} {c : Char}

theorem HasWord.isInfix {w : String} (h : HasWord w text) : w.toList <:+: text := by
  obtain ⟨front, back, rfl, -⟩ := h
  exact ⟨front, back, by simp⟩

theorem flat_of_forall (h : ∀ c ∈ text, c ≠ '/' ∧ isQuote c = false ∧ isBrace c = false) :
    Flat text := by
  induction text with
  | nil => exact .nil
  | cons c cs ih =>
      rw [List.forall_mem_cons] at h
      exact .plain h.1.1 h.1.2.1 h.1.2.2 (ih h.2)

/-- Text without quotes, braces, slashes and the words of modules. -/
theorem plain_of_forall (h : ∀ c ∈ text, c ≠ '/' ∧ isQuote c = false ∧ isBrace c = false)
    (himport : ¬ HasWord "import" text) (hexport : ¬ HasWord "export" text) : Plain text :=
  ⟨flat_of_forall h, fun front back htext hfront hback =>
    absurd ⟨front, back, htext, hfront, hback⟩ himport, hexport⟩

/-- Whether a text has no quotes, braces and slashes, nor the words of modules. -/
def bare (text : List Char) : Bool :=
  (text.all fun c => c != '/' && !isQuote c && !isBrace c) &&
    !decide ("import".toList <:+: text) && !decide ("export".toList <:+: text)

theorem plain_of_bare (h : bare text = true) : Plain text := by
  simp only [bare, Bool.and_eq_true, Bool.not_eq_true', decide_eq_false_iff_not] at h
  obtain ⟨⟨hchars, himport⟩, hexport⟩ := h
  refine plain_of_forall (fun c hc => ?_) (fun hword => himport hword.isInfix) fun hword =>
    hexport hword.isInfix
  have hchar := List.all_eq_true.mp hchars c hc
  simpa [and_assoc] using hchar

theorem Flat.reads (h : Flat text) : Reads text text := by
  induction h with
  | nil => exact reads_nil
  | plain hslash hquote _ _ ih =>
      exact (reads_plain (List.forall_mem_singleton.mpr ⟨hslash, hquote⟩)).append ih
  | slash hline hblock _ ih => exact reads_slash hline hblock ih
  | @string κ inside cs hκ hinside _ ih =>
      have hread := (reads_string hκ hinside).append ih
      simpa using hread
  | @braces inside cs _ _ ihinside ih =>
      have hmark {d : Char} (hd : d ≠ '/' ∧ isQuote d = false) : Reads [d] [d] :=
        reads_plain (List.forall_mem_singleton.mpr hd)
      have hread := (hmark (d := '\x7b') (by decide)).append
        (ihinside.append ((hmark (d := '\x7d') (by decide)).append ih))
      simpa using hread

/-! ## Words at the border of a text -/

/-- A run of characters of a class does not go on behind a text if no such character follows it. -/
theorem exists_of_run {p : Char → Bool} {run more : List Char} (hrun : ∀ c ∈ run, p c = true)
    (hrest : ∀ c ∈ rest.head?, p c = false) (h : text ++ rest = run ++ more) :
    ∃ back, text = run ++ back ∧ more = back ++ rest := by
  rcases List.append_eq_append_iff.mp h with ⟨back, hback, hbehind⟩ | ⟨back, htext, hmore⟩
  · cases back with
    | nil => exact ⟨[], by simpa using hback.symm, by simpa using hbehind.symm⟩
    | cons c cs =>
        have hfalse := hrest c (by rw [hbehind]; rfl)
        rw [hrun c (by rw [hback]; simp)] at hfalse
        cases hfalse
  · exact ⟨back, htext, hmore⟩

theorem isBlank_of_afterImport (h : afterImport c = true) : Text.isBlank c = false := by
  rw [afterImport, Bool.or_eq_true] at h
  rcases h with h | h
  · exact isBlank_of_inName h
  · simp only [List.contains_eq_mem, decide_eq_true_eq] at h
    have hmarks : c ∈ ['*', '\x7b', '"', '\'', '`'] := h
    simp only [List.mem_cons, List.not_mem_nil, or_false] at hmarks
    rcases hmarks with rfl | rfl | rfl | rfl | rfl <;> decide

/-- What is called is neither declared nor named. -/
theorem Calls.next {more gap : List Char} {c : Char} (h : Calls text)
    (htext : text = front ++ ("import".toList ++ back))
    (hfront : (past none front).any Text.isWord = false) (hgap : AnyBlanks gap)
    (hc : Text.isBlank c = false) (hnext : (gap ++ c :: more).head?.any Text.isWord = false)
    (hback : back ++ rest = gap ++ c :: more) : c = '(' := by
  rw [← hback] at hnext
  obtain ⟨gap', more', rfl, hgap'⟩ := h front back htext hfront (any_head?_of_append hnext)
  rw [List.append_assoc, List.cons_append] at hback
  obtain ⟨-, hparen, -⟩ := eq_of_append_first hgap' hgap (by decide) hc hback
  exact hparen.symm

theorem isWord_of_inIndent (h : inIndent c = true) : Text.isWord c = false := by
  simp only [inIndent, Bool.or_eq_true, beq_iff_eq] at h
  rcases h with rfl | rfl <;> decide

/-- No syntax of modules only begins in a plain text, if no word and no indent goes on behind it. -/
theorem Plain.moduleOnly_eq_nil (h : Plain text)
    (hrest : ∀ c ∈ rest.head?, Text.isWord c = false ∧ inIndent c = false)
    (hcut : text = front ++ back) : moduleOnly ⟨past b front, back ++ rest⟩ = [] := by
  have hword {w : List Char} {more back : List Char} (hw : w.all Text.isWord = true)
      (h : back ++ rest = w ++ more) : ∃ back', back = w ++ back' ∧ more = back' ++ rest :=
    exists_of_run (List.all_eq_true.mp hw) (fun c hc => (hrest c hc).1) h
  have hnone {front : List Char} {b : Option Char} (hb : (past b front).any Text.isWord = false) :
      (past none front).any Text.isWord = false := by
    cases front with
    | nil => rfl
    | cons c cs => exact hb
  rw [List.eq_nil_iff_forall_not_mem]
  intro s hs
  rcases moduleOnly_cases hs with ⟨hstart, ind, cs, hcs, hind, hdeclared⟩ | hmeta
  · obtain ⟨back', rfl, rfl⟩ := exists_of_run hind (fun c hc => (hrest c hc).2) hcs
    have hfront : (past none (front ++ ind)).any Text.isWord = false := by
      rw [past_append]
      refine any_past (hnone (b := b) ?_) fun c hc => isWord_of_inIndent (hind c hc)
      cases hpast : past b front with
      | none => rfl
      | some c => rw [hstart c hpast]; decide
    rcases hdeclared with ⟨gap, c, more, hmore, hgap, hafter, hnext⟩ | ⟨more, hmore, hnext⟩
    · obtain ⟨behind, rfl, hbehind⟩ := hword (by decide) hmore
      have himport : text = front ++ ind ++ ("import".toList ++ behind) := by rw [hcut]; simp
      have hparen := h.calls.next himport hfront hgap (isBlank_of_afterImport hafter) hnext
        hbehind.symm
      rw [hparen] at hafter
      exact absurd hafter (by decide)
    · obtain ⟨behind, rfl, rfl⟩ := hword (by decide) hmore
      exact h.no_export ⟨front ++ ind, behind, by rw [hcut]; simp, hfront, any_head?_of_append hnext⟩
  · obtain ⟨hb, gap, gap', more, hmore, hgap, -, -⟩ := hmeta
    obtain ⟨behind, rfl, hbehind⟩ := hword (by decide) hmore
    have hnext : (gap ++ '.' :: (gap' ++ ("meta".toList ++ more))).head?.any Text.isWord =
        false := by
      cases gap with
      | nil =>
          change (some '.').any Text.isWord = false
          decide
      | cons c cs => simpa using isWord_of_isBlank (hgap c (List.mem_cons_self ..))
    have hparen := h.calls.next hcut (hnone hb) hgap (by decide) hnext hbehind.symm
    cases hparen

/-- The search for syntax of modules only goes on behind a plain text. -/
theorem Plain.matchesSomewhere_eq (h : Plain text) (b : Option Char)
    (hrest : ∀ c ∈ rest.head?, Text.isWord c = false ∧ inIndent c = false) :
    matchesSomewhere moduleOnly b (text ++ rest) = matchesSomewhere moduleOnly (past b text) rest :=
  matchesSomewhere_through fun _ _ hcut _ => h.moduleOnly_eq_nil hrest hcut

/-- It goes on behind a piece of code, too. -/
theorem Plain.matchesSomewhere_piece {d : Char} (h : Plain text) (hd : endsPiece d = true)
    (b : Option Char) (rest : List Char) :
    matchesSomewhere moduleOnly b (text ++ d :: rest) =
      matchesSomewhere moduleOnly (past b (text ++ [d])) rest := by
  have hmark : Text.isWord d = false ∧ inIndent d = false := by
    rcases cases_endsPiece hd with rfl | rfl | rfl <;> decide
  have hhere (b : Option Char) : moduleOnly ⟨b, d :: rest⟩ = [] := by
    rw [List.eq_nil_iff_forall_not_mem]
    intro s hs
    rcases moduleOnly_head? hs d rfl with hindent | hword
    · rw [hmark.2] at hindent
      cases hindent
    · rw [hmark.1] at hword
      cases hword
  have hbehind (b : Option Char) : matchesSomewhere moduleOnly b (d :: rest) =
      matchesSomewhere moduleOnly (some d) rest := by
    rw [matchesSomewhere, hhere]
    rfl
  rw [h.matchesSomewhere_eq b fun c hc => by rw [← Option.some.inj hc]; exact hmark,
    hbehind, past_append]
  rfl

/-! ## What awaits in a text -/

theorem Lead.past_any {lead : List Char} (h : Lead lead) (hb : b.any Text.isWord = false) :
    (past b lead).any Text.isWord = false := by
  cases h with
  | plain hind => exact any_past hb fun c hc => isWord_of_inIndent (hind c hc)
  | declaring _ _ _ _ hgap' =>
      rw [past_append, past_append, past_append, past_append, past_cons]
      refine any_past_blanks ?_ hgap'
      decide

theorem Awaits.hasWord {code : List Char} (h : Awaits code text) : HasWord "await" text := by
  obtain ⟨front, lead, back, rfl, hlead, hstart, hback⟩ := h
  refine ⟨front ++ lead, back, by simp, ?_, hback⟩
  rw [past_append]
  refine hlead.past_any ?_
  rcases List.eq_nil_or_concat front with rfl | ⟨front, c, rfl⟩
  · rfl
  · have hbreak := hstart c (by simp)
    rw [List.concat_eq_append, past_append, hbreak, past_cons, past_nil]
    decide

theorem Assigned.hasWord (h : Assigned text) : HasWord "await" text := by
  obtain ⟨names, gap, back, rfl, -, hgap, hback⟩ := h
  refine ⟨names ++ '=' :: gap, back, by simp, ?_, hback⟩
  rw [past_append, past_cons]
  refine any_past_blanks ?_ hgap
  decide

theorem Crosses.hasWord {code : List Char} (h : Crosses code text) : HasWord "await" text :=
  h.2.hasWord

def loopsOnly (text : List Char) : Bool :=
  (List.range text.length).all fun place =>
    !"await".toList.isPrefixOf (text.drop place) || "for ".toList.isSuffixOf (text.take place)

theorem exists_of_loopsOnly (h : loopsOnly (front ++ ("await".toList ++ back)) = true) :
    ∃ more, front.reverse = ' ' :: 'r' :: more := by
  have hplace : front.length ∈ List.range (front ++ ("await".toList ++ back)).length := by
    rw [List.mem_range, List.length_append, List.length_append]
    exact Nat.lt_add_of_pos_right (Nat.add_pos_left (by decide) _)
  have hhere := List.all_eq_true.mp h _ hplace
  rw [List.drop_left, List.take_left, Bool.or_eq_true, Bool.not_eq_true'] at hhere
  rcases hhere with hnone | hloop
  · have hfound : "await".toList.isPrefixOf ("await".toList ++ back) = true :=
      List.isPrefixOf_iff_prefix.mpr (List.prefix_append ..)
    rw [hfound] at hnone
    cases hnone
  · obtain ⟨more, rfl⟩ := List.isSuffixOf_iff_suffix.mp hloop
    exact ⟨'o' :: 'f' :: more.reverse, by simp⟩

/-- No line of a loop's head awaits anything itself. -/
theorem quiet_of_loopsOnly {code : List Char} (h : loopsOnly text = true) :
    ¬ Awaits code text ∧ ¬ Crosses code text := by
  have hsign (names : List Char) {gap : List Char} (hgap : AnyBlanks gap)
      (hloop : ∃ more, (names ++ '=' :: gap).reverse = ' ' :: 'r' :: more) : False := by
    obtain ⟨more, hmore⟩ := hloop
    have hcut : gap.reverse ++ '=' :: names.reverse = [' '] ++ 'r' :: more := by simpa using hmore
    obtain ⟨-, hne, -⟩ := eq_of_append_first (fun c hc => hgap c (List.mem_reverse.mp hc))
      (List.forall_mem_singleton.mpr (rfl : Text.isBlank ' ' = true)) (by decide) (by decide) hcut
    cases hne
  constructor
  · rintro ⟨front, lead, back, rfl, hlead, hstart, -⟩
    rw [← List.append_assoc] at h
    obtain ⟨more, hmore⟩ := exists_of_loopsOnly h
    cases hlead with
    | plain hind =>
        rcases List.eq_nil_or_concat front with rfl | ⟨front, c, rfl⟩
        · have hr := hind 'r' (List.mem_reverse.mp (by rw [← List.nil_append lead, hmore]; simp))
          cases hr
        · obtain rfl : c = '\n' := hstart c (by simp)
          have hcut : lead.reverse ++ '\n' :: front.reverse = [' '] ++ 'r' :: more := by
            simpa using hmore
          obtain ⟨-, hne, -⟩ := eq_of_append_first (fun c hc => hind c (List.mem_reverse.mp hc))
            (List.forall_mem_singleton.mpr (rfl : inIndent ' ' = true)) (by decide) (by decide) hcut
          cases hne
    | @declaring ind gap names gap' w _ _ _ _ hgap' =>
        refine hsign (front ++ (ind ++ (w.toList ++ (gap ++ names)))) hgap' ⟨more, ?_⟩
        rw [← hmore]
        simp
  · rintro ⟨-, names, gap, back, rfl, -, hgap, -⟩
    rw [← List.cons_append, ← List.append_assoc] at h
    exact hsign names hgap (exists_of_loopsOnly h)

theorem not_hasWord_blanks {w : String} (hw : w.toList.head?.any Text.isWord = true)
    (h : AnyBlanks text) : ¬ HasWord w text := by
  rintro ⟨front, back, rfl, -⟩
  cases hlist : w.toList with
  | nil =>
      rw [hlist] at hw
      cases hw
  | cons c cs =>
      have hblank := h c (by rw [hlist]; simp)
      rw [hlist] at hw
      exact absurd hw (by simp [isWord_of_isBlank hblank])

theorem plain_of_blanks (h : AnyBlanks text) : Plain text :=
  plain_of_forall (fun c hc => ⟨ne_of_isBlank (h c hc) (by decide), isQuote_of_isBlank (h c hc),
    isBrace_of_isBlank (h c hc)⟩) (not_hasWord_blanks (by decide) h)
    (not_hasWord_blanks (by decide) h)

end ScriptSandbox.Scan
