import ScriptSandbox.Proofs.Scan.Plain

/-!
# Outlines of sources

An `Outline` is a source as a tree: statements that end in a semicolon, lines that await, and blocks
in braces, nested to any depth, each with its head. In the text of an outline nothing is syntax of
modules only (`Outline.matchesSomewhere_eq`), and what awaits is found exactly where its lines that
await begin (`Outline.finds`).
-/

namespace ScriptSandbox.Scan

open Pattern

/-! ## Statements and heads -/

/-- A statement that awaits nothing, up to its semicolon. -/
structure PlainStatement where
  body : List Char
  plain : Plain body
  no_await : ¬ HasWord "await" body

def PlainStatement.text (s : PlainStatement) : List Char := s.body ++ [';']

/-- A line that awaits, with the blanks before it, which end in a line break if there are any. -/
structure AwaitLine where
  gap : List Char
  lead : List Char
  tail : List Char
  blank : AnyBlanks gap
  fresh : ∀ c ∈ gap.getLast?, c = '\n'
  begins : Begins lead
  apart : ∃ c ∈ tail.head?, Text.isWord c = false
  one_line : '\n' ∉ tail
  plain : Plain (gap ++ (lead ++ "await".toList ++ tail))

def AwaitLine.text (a : AwaitLine) : List Char := a.gap ++ (a.lead ++ "await".toList ++ a.tail)

/-- What may stand before a block. -/
inductive HeadForm where
  /-- A name and parentheses, such as a method's or an `if`; there may be more words before. -/
  | named (front name gap params gap' : List Char)
  | arrow (front gap : List Char)
  /-- Words such as `else` or `class A`, or nothing. -/
  | other (text : List Char)

namespace HeadForm

def text : HeadForm → List Char
  | named front name gap params gap' => front ++ (name ++ (gap ++ '(' :: (params ++ ')' :: gap')))
  | arrow front gap => front ++ '=' :: '>' :: gap
  | other text => text

/-- Whether the block is a function's body: it is unless the name is a keyword of plain blocks. -/
def isFunction : HeadForm → Bool
  | named _ name _ _ _ => !blockKeywords.contains (String.ofList name)
  | arrow _ _ => true
  | other _ => false

/-- Whether the parts are what they are meant to be. -/
def Formed : HeadForm → Prop
  | named front name gap params gap' =>
    (∀ c ∈ front.getLast?, inHeadWord c = false) ∧ name ≠ [] ∧ (∀ c ∈ name, inHeadWord c = true) ∧
      AnyBlanks gap ∧ Balanced params ∧ AnyBlanks gap'
  | arrow _ gap => AnyBlanks gap
  | other text => ∀ c front gap, text = front ++ c :: gap → AnyBlanks gap → c ≠ ')' ∧ c ≠ '>'

end HeadForm

/-- The head of a block. -/
structure BlockHead where
  form : HeadForm
  formed : form.Formed
  plain : Plain form.text

namespace BlockHead

def text (h : BlockHead) : List Char := h.form.text

def isFunction (h : BlockHead) : Bool := h.form.isFunction

def ofBare (form : HeadForm) (formed : form.Formed) (h : bare form.text = true) : BlockHead :=
  ⟨form, formed, plain_of_bare h⟩

end BlockHead

/-! ## Outlines -/

/-- A source as a tree. -/
inductive Outline where
  | done (gap : List Char) (blank : AnyBlanks gap)
  | statement (s : PlainStatement) (next : Outline)
  | line (a : AwaitLine) (next : Outline)
  | block (h : BlockHead) (body next : Outline)

namespace Outline

def text : Outline → List Char
  | done gap _ => gap
  | statement s next => s.text ++ next.text
  | line a next => a.text ++ next.text
  | block h body next => h.text ++ '\x7b' :: (body.text ++ '\x7d' :: next.text)

def awaits : Outline → List (List BlockHead)
  | done _ _ => []
  | statement _ next => next.awaits
  | line _ next => [] :: next.awaits
  | block h body next => body.awaits.map (h :: ·) ++ next.awaits

/-- Whether the lines that await are lines of their own, and no head of a block holds such a line
itself or the end of one: neither is there a statement that awaits in the head, nor is awaited there
what the code before it declares. -/
def Lined : (code : List Char) → Outline → Prop
  | _, done _ _ => True
  | code, statement s next => next.Lined (code ++ s.text)
  | code, line a next =>
    (a.gap = [] → code = []) ∧ (∀ c ∈ next.text.head?, c = '\n') ∧ next.Lined (code ++ a.text)
  | code, block h body next =>
    (¬ Awaits code h.text ∧ ¬ Crosses code h.text) ∧ body.Lined (code ++ (h.text ++ ['\x7b'])) ∧
      next.Lined (code ++ (h.text ++ ['\x7b']) ++ body.text ++ ['\x7d'])

def befores : Outline → List (List Char)
  | done _ _ => []
  | statement s next => next.befores.map (s.text ++ ·)
  | line a next => a.gap :: next.befores.map (a.text ++ ·)
  | block h body next =>
    body.befores.map (fun before => h.text ++ '\x7b' :: before) ++
      next.befores.map fun before => h.text ++ '\x7b' :: (body.text ++ '\x7d' :: before)

/-- What may follow an outline: nothing, or the brace that closes the block it fills. -/
def Closing (code after : List Char) : Prop :=
  after = [] ∨ ∃ more, after = '\x7d' :: more ∧ ¬ Crosses (code ++ ['\x7d']) more

theorem reads (o : Outline) : Reads o.text o.text := by
  have hmark {d : Char} (hd : endsPiece d = true) : Reads [d] [d] := by
    rcases cases_endsPiece hd with rfl | rfl | rfl <;> exact reads_plain (by simp [isQuote])
  induction o with
  | done gap blank => exact (plain_of_blanks blank).flat.reads
  | statement s next ih => exact (s.plain.flat.reads.append (hmark rfl)).append ih
  | line a next ih => exact a.plain.flat.reads.append ih
  | block h body next ihbody ihnext =>
      have hblock := h.plain.flat.reads.append
        ((hmark (d := '\x7b') rfl).append (ihbody.append ((hmark (d := '\x7d') rfl).append ihnext)))
      simpa [text, BlockHead.text] using hblock

/-- What is declared before an outline is not awaited behind its begin. -/
theorem not_crosses (o : Outline) {code after : List Char} (h : o.Lined code)
    (hafter : Closing (code ++ o.text) after) : ¬ Crosses code (o.text ++ after) := by
  induction o generalizing code after with
  | done gap blank =>
      have hgap : ¬ Crosses code gap := fun h => not_hasWord_blanks (by decide) blank h.hasWord
      rcases hafter with rfl | ⟨more, rfl, hmore⟩
      · rwa [text, List.append_nil]
      · intro hcrosses
        rcases hcrosses.cut rfl with hcrosses | hcrosses
        · exact hgap hcrosses
        · rw [← List.append_assoc] at hcrosses
          exact hmore hcrosses
  | statement s next ih =>
      intro hcrosses
      rw [text, ← List.append_assoc] at hafter
      rw [text, PlainStatement.text, List.append_assoc, List.append_assoc] at hcrosses
      rcases hcrosses.cut rfl with hbody | hnext
      · exact s.no_await hbody.hasWord
      · exact ih h hafter hnext
  | line a next ih =>
      intro hcrosses
      by_cases hnil : a.gap = []
      · rw [h.1 hnil] at hcrosses
        exact not_crosses_of_nil hcrosses
      obtain ⟨gap, c, hgap⟩ := (List.eq_nil_or_concat a.gap).resolve_left hnil
      rw [List.concat_eq_append] at hgap
      obtain rfl : c = '\n' := a.fresh c (by rw [hgap]; simp)
      obtain ⟨-, names, sep, more, htext, hnames, -⟩ := hcrosses
      have hcut : names ++ '=' :: (sep ++ ("await".toList ++ more)) =
          gap ++ '\n' :: (a.lead ++ "await".toList ++ a.tail ++ (next.text ++ after)) := by
        rw [← htext, text, AwaitLine.text, hgap]
        simp
      obtain ⟨between, hbefore, hbehind⟩ :=
        exists_of_append_eq_append_cons hcut fun hmem => (hnames _ hmem).2 rfl
      cases between with
      | nil => cases (List.cons.inj hbehind).1
      | cons d ds =>
          obtain ⟨rfl, -⟩ := List.cons.inj hbehind
          have hblank := a.blank '=' (by rw [hgap, hbefore]; simp)
          cases hblank
  | block head body next ihbody ihnext =>
      obtain ⟨⟨-, hhead⟩, hbody, hnext⟩ := h
      intro hcrosses
      have hend : Closing (code ++ (head.text ++ ['\x7b']) ++ body.text ++ ['\x7d'] ++ next.text)
          after := by
        simpa [text] using hafter
      rw [text, List.append_assoc, List.cons_append, List.append_assoc,
        List.cons_append] at hcrosses
      rcases hcrosses.cut rfl with hfront | hbehind
      · exact hhead hfront
      · exact ihbody hbody (.inr ⟨_, rfl, ihnext hnext hend⟩) hbehind

/-- The places of a search, by what stands before them. -/
def places (offset : Nat) (befores : List (List Char)) : List (Nat × Unit) :=
  befores.map fun before => (offset + before.length, ())

theorem places_map (offset : Nat) (front : List Char) (befores : List (List Char)) :
    places offset (befores.map (front ++ ·)) = places (offset + front.length) befores := by
  simp [places, Function.comp_def, Nat.add_assoc]

theorem places_block (offset : Nat) (head : BlockHead) (body next : Outline) :
    places offset (block head body next).befores =
      places (offset + (head.text ++ ['\x7b']).length) body.befores ++
        places (offset + (head.text ++ ['\x7b']).length + body.text.length + 1) next.befores := by
  have hbefores : (block head body next).befores =
      body.befores.map (head.text ++ ['\x7b'] ++ ·) ++
        next.befores.map (head.text ++ ['\x7b'] ++ (body.text ++ ['\x7d']) ++ ·) := by
    simp [befores]
  rw [hbefores, places, List.map_append, ← places, ← places, places_map, places_map]
  simp only [List.length_append, List.length_singleton, Nat.add_assoc]

theorem finds (o : Outline) {code after : List Char} (h : o.Lined code) (offset : Nat)
    (hafter : Closing (code ++ o.text) after) :
    Finds awaiting after (past none code) offset o.text (places offset o.befores) := by
  have hpiece {code front rest : List Char} {d : Char} (hd : endsPiece d = true)
      (hquiet : ¬ Awaits code front) (hrest : ¬ Crosses (code ++ (front ++ [d])) rest)
      (offset : Nat) : Finds awaiting rest (past none code) offset (front ++ [d]) [] :=
    finds_none fun _ _ hcut hne => awaiting_eq_none hd hquiet hrest hcut hne
  have hquiet {code gap : List Char} (hgap : AnyBlanks gap) : ¬ Awaits code gap := fun h =>
    not_hasWord_blanks (by decide) hgap h.hasWord
  induction o generalizing code after offset with
  | done gap blank =>
      refine finds_none fun front back hcut hne => ?_
      rcases hafter with rfl | ⟨more, rfl, hmore⟩
      · rw [List.append_nil]
        exact awaiting_eq_none_of_end (hquiet blank) hcut
      · have hgap : gap ++ ['\x7d'] = front ++ (back ++ ['\x7d']) := by
          rw [← List.append_assoc, ← hcut]
          rfl
        rw [text, List.append_assoc] at hmore
        have hnone := awaiting_eq_none rfl (hquiet blank) hmore hgap (by simp)
        simpa using hnone
  | statement s next ih =>
      rw [text, ← List.append_assoc] at hafter
      have hbody := hpiece (d := ';') rfl (fun h => s.no_await h.hasWord)
        (next.not_crosses h hafter) offset
      have hnext := ih h (offset + s.text.length) hafter
      rw [past_append] at hnext
      rw [text, befores, places_map]
      exact hbody.append hnext
  | line a next ih =>
      obtain ⟨hfresh, -, hnext⟩ := h
      rw [text, ← List.append_assoc] at hafter
      have hstart (hnil : a.gap = []) (c : Char) (hc : past none code = some c) : c = '\n' := by
        rw [hfresh hnil] at hc
        cases hc
      have hline : Finds awaiting (next.text ++ after) (past none code) offset a.text
          (places offset [a.gap]) :=
        a.begins.finds a.blank a.fresh hstart a.one_line a.apart
      have hnext := ih hnext (offset + a.text.length) hafter
      rw [past_append] at hnext
      rw [text, befores, places, List.map_cons, ← places, places_map]
      exact hline.append hnext
  | block head body next ihbody ihnext =>
      obtain ⟨⟨hhead, -⟩, hbody, hnext⟩ := h
      have hend : Closing (code ++ (head.text ++ ['\x7b']) ++ body.text ++ ['\x7d'] ++ next.text)
          after := by
        simpa [text] using hafter
      have hbehind := next.not_crosses hnext hend
      have hinside : Closing (code ++ (head.text ++ ['\x7b']) ++ body.text)
          ('\x7d' :: (next.text ++ after)) := .inr ⟨_, rfl, hbehind⟩
      have htext : (block head body next).text =
          head.text ++ ['\x7b'] ++ (body.text ++ (['\x7d'] ++ next.text)) := by simp [text]
      -- Nothing is found in the head and at the two braces.
      have hopen : Finds awaiting (body.text ++ (['\x7d'] ++ next.text) ++ after) (past none code)
          offset (head.text ++ ['\x7b']) [] := by
        rw [List.append_assoc]
        exact hpiece (d := '\x7b') rfl hhead (body.not_crosses hbody hinside) offset
      have hfill := ihbody hbody (offset + (head.text ++ ['\x7b']).length) hinside
      have hclose := hpiece (d := '\x7d') rfl (hquiet (List.forall_mem_nil _)) hbehind
        (offset + (head.text ++ ['\x7b']).length + body.text.length)
      have hmore := ihnext hnext
        (offset + (head.text ++ ['\x7b']).length + body.text.length + 1) hend
      rw [past_append] at hmore
      have htail := hclose.append hmore
      rw [past_append] at htail
      rw [past_append] at hfill htail
      rw [htext, places_block]
      exact hopen.append (hfill.append htail)

theorem matchesSomewhere_eq (o : Outline) {code after : List Char} (h : o.Lined code)
    (b : Option Char) (hafter : ∀ c ∈ after.head?, Text.isWord c = false ∧ inIndent c = false) :
    matchesSomewhere moduleOnly b (o.text ++ after) =
      matchesSomewhere moduleOnly (past b o.text) after := by
  induction o generalizing code b after with
  | done gap blank => exact (plain_of_blanks blank).matchesSomewhere_eq b hafter
  | statement s next ih =>
      have hbody := s.plain.matchesSomewhere_piece (d := ';') rfl b (next.text ++ after)
      rw [text, PlainStatement.text, List.append_assoc, List.append_assoc, List.singleton_append,
        hbody, ih h _ hafter, ← past_append]
  | line a next ih =>
      obtain ⟨-, hend, hnext⟩ := h
      have hapart : ∀ c ∈ (next.text ++ after).head?,
          Text.isWord c = false ∧ inIndent c = false := by
        intro c hc
        cases hcs : next.text with
        | nil =>
            rw [hcs] at hc
            exact hafter c hc
        | cons d ds =>
            rw [hcs] at hc hend
            obtain rfl := Option.some.inj hc
            rw [hend d rfl]
            decide
      rw [text, List.append_assoc, AwaitLine.text, a.plain.matchesSomewhere_eq b hapart,
        ih hnext _ hafter, ← past_append]
  | block head body next ihbody ihnext =>
      obtain ⟨-, hbody, hnext⟩ := h
      have hopen := head.plain.matchesSomewhere_piece (d := '\x7b') rfl b
        (body.text ++ '\x7d' :: (next.text ++ after))
      have hclose (b : Option Char) :
          matchesSomewhere moduleOnly b ('\x7d' :: (next.text ++ after)) =
            matchesSomewhere moduleOnly (some '\x7d') (next.text ++ after) :=
        (plain_of_blanks (List.forall_mem_nil _)).matchesSomewhere_piece rfl b _
      have htext : (block head body next).text ++ after =
          head.form.text ++ '\x7b' :: (body.text ++ '\x7d' :: (next.text ++ after)) := by
        simp [text, BlockHead.text]
      rw [htext, hopen, ihbody hbody _ fun c hc => by rw [← Option.some.inj hc]; decide, hclose,
        ihnext hnext _ hafter]
      simp [text, BlockHead.text]

end Outline

end ScriptSandbox.Scan
