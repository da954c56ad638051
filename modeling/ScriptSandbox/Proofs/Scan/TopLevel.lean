import ScriptSandbox.Proofs.Scan.Outline

/-!
# Statements that await outside every function

Whether a source is a module is decided by its lines that await: the walk keeps, for each open
brace, whether it opened a function, and each head is told from the parentheses before its brace,
however deep the blocks are nested (`BlockHead.opensFunction_eq`). What one block opens it closes
(`Outline.stands`), so that the blocks around a line are those the outline has around it. A source
that can be outlined is a module exactly if a line that awaits has no function's head around it
(`hasModuleSyntax_outline`).

A block without a head is told from what stands before it. After a line that awaits this may be a
closing parenthesis, and the block is taken for a function's body; but then that line has settled
the matter already.
-/

namespace ScriptSandbox.Scan

/-! ## Texts of one byte a character -/

variable {code text : List Char} {blocks : List Bool} {flag : Bool}

/-- Characters of one byte. -/
def Ascii (text : List Char) : Prop := ∀ c ∈ text, c.toNat < 128

theorem ascii_of_all (h : (text.all fun c => decide (c.toNat < 128)) = true) : Ascii text :=
  fun c hc => of_decide_eq_true (List.all_eq_true.mp h c hc)

theorem Ascii.of_append {front back : List Char} (h : Ascii (front ++ back)) : Ascii front :=
  fun c hc => h c (List.mem_append_left _ hc)

theorem utf8Size_of_lt {c : Char} (h : c.toNat < 128) : ¬ 1 < c.utf8Size := by
  have hval : c.val ≤ 0x7f := by
    rw [UInt32.le_iff_toNat_le]
    have hnat : c.val.toNat < 128 := h
    have hbound : (0x7f : UInt32).toNat = 127 := rfl
    omega
  simp [Char.utf8Size, hval]

theorem not_splitsWord (h : Ascii code) (c : Char) : ¬ SplitsWord code c := by
  rintro ⟨front, word, gap, params, tail, rfl, -, -, -, -, -, hwide⟩
  exact utf8Size_of_lt (h c (by simp)) hwide

theorem exists_opensFunction (h : Ascii code) : ∃ flag, opensFunction code.reverse = .ok flag := by
  cases hopens : opensFunction code.reverse with
  | ok flag => exact ⟨flag, rfl⟩
  | error e =>
      exact absurd (splitsWord_of_opensFunction_error hopens) (not_splitsWord h e.character)

theorem isBlank_of_inHeadWord {c : Char} (hascii : c.toNat < 128) (h : inHeadWord c = true) :
    Text.isBlank c = false := by
  have hcodes : ∀ n < 128, inHeadWord (Char.ofNat n) = true →
      Text.isBlank (Char.ofNat n) = false := by
    decide +kernel
  rw [← Char.ofNat_toNat c] at h ⊢
  exact hcodes c.toNat hascii h

/-! ## The walk over code -/

/-- The walk comes through some code, outside the strings, with some blocks open. -/
def Stands (code : List Char) (blocks : List Bool) : Prop :=
  code.foldlM Nesting.step {} = .ok ⟨.outside, blocks, code.reverse⟩

namespace Stands

theorem nil : Stands [] [] := rfl

theorem insideFunction_eq (h : Stands code blocks) :
    insideFunction code = .ok (blocks.contains true) := by
  rw [insideFunction, h]
  rfl

theorem through {blocks' : List Bool} (h : Stands code blocks)
    (htext : text.foldlM Nesting.step ⟨.outside, blocks, code.reverse⟩ =
      .ok ⟨.outside, blocks', text.reverse ++ code.reverse⟩) : Stands (code ++ text) blocks' := by
  rw [Stands, List.foldlM_append, h, List.reverse_append]
  exact htext

theorem opens (h : Stands code blocks) (hflag : opensFunction code.reverse = .ok flag) :
    Stands (code ++ ['\x7b']) (flag :: blocks) := by
  refine h.through ?_
  have hstep : Nesting.step ⟨.outside, blocks, code.reverse⟩ '\x7b' =
      .ok ⟨.outside, flag :: blocks, '\x7b' :: code.reverse⟩ := by
    simp [Nesting.step, hflag, isQuote]
  rw [List.foldlM_cons, hstep]
  rfl

theorem closes (h : Stands code (flag :: blocks)) : Stands (code ++ ['\x7d']) blocks :=
  h.through rfl

theorem plain {c : Char} (h : Stands code blocks) (hquote : isQuote c = false)
    (hbrace : isBrace c = false) : Stands (code ++ [c]) blocks := by
  refine h.through ?_
  simp only [isBrace, Bool.or_eq_false_iff] at hbrace
  have hstep : Nesting.step ⟨.outside, blocks, code.reverse⟩ c =
      .ok ⟨.outside, blocks, c :: code.reverse⟩ := by
    simp [Nesting.step, hquote, hbrace.1, hbrace.2]
  rw [List.foldlM_cons, hstep]
  rfl

/-- A text with closed strings and braces leaves the blocks as they are. -/
theorem flat (h : Stands code blocks) (htext : Flat text) (hascii : Ascii (code ++ text)) :
    Stands (code ++ text) blocks := by
  induction htext generalizing code blocks with
  | nil => rwa [List.append_nil]
  | @plain c cs _ hquote hbrace _ ih =>
      rw [List.append_cons] at hascii ⊢
      exact ih (h.plain hquote hbrace) hascii
  | @slash c cs _ _ _ ih =>
      rw [List.append_cons] at hascii ⊢
      exact ih (h.plain (by decide) (by decide)) hascii
  | @string κ inside cs hκ hinside _ ih =>
      have hsplit : code ++ κ :: (inside ++ κ :: cs) = code ++ κ :: (inside ++ [κ]) ++ cs := by simp
      rw [hsplit] at hascii ⊢
      exact ih (h.through (foldlM_step_literal hκ hinside blocks code.reverse)) hascii
  | @braces inside cs _ _ ihinside ih =>
      have hsplit : code ++ '\x7b' :: (inside ++ '\x7d' :: cs) =
          code ++ ['\x7b'] ++ inside ++ ['\x7d'] ++ cs := by simp
      rw [hsplit] at hascii ⊢
      have hwithin := hascii.of_append.of_append
      obtain ⟨flag, hflag⟩ := exists_opensFunction hwithin.of_append.of_append
      exact ih (ihinside (h.opens hflag) hwithin).closes hascii

end Stands

/-! ## Heads -/

/-- Code that ends with a piece. -/
def Calm (code : List Char) : Prop := ∀ c ∈ code.getLast?, endsPiece c = true

theorem calm_nil : Calm [] := nofun

theorem calm_concat {d : Char} (hd : endsPiece d = true) : Calm (code ++ [d]) := by
  intro c hc
  rw [List.getLast?_concat] at hc
  rw [← Option.some.inj hc]
  exact hd

theorem inHeadWord_of_endsPiece {d : Char} (hd : endsPiece d = true) : inHeadWord d = false := by
  rcases cases_endsPiece hd with rfl | rfl | rfl <;> decide

theorem isBlank_of_endsPiece {d : Char} (hd : endsPiece d = true) : Text.isBlank d = false := by
  rcases cases_endsPiece hd with rfl | rfl | rfl <;> decide

theorem takeWhile_run {p : Char → Bool} {run rest : List Char} (hrun : ∀ c ∈ run, p c = true)
    (hrest : ∀ c ∈ rest.head?, p c = false) :
    (run ++ rest).takeWhile p = run ∧ (run ++ rest).dropWhile p = rest := by
  rw [List.takeWhile_append_of_pos hrun, List.dropWhile_append_of_pos hrun]
  cases rest with
  | nil => simp
  | cons c cs => simp [hrest c rfl]

/-- A name and parentheses: the name is looked up. -/
theorem opensFunction_named {front name gap params gap' : List Char}
    (hascii : Ascii (code ++ (HeadForm.named front name gap params gap').text)) (hcalm : Calm code)
    (h : (HeadForm.named front name gap params gap').Formed) :
    opensFunction (code ++ (HeadForm.named front name gap params gap').text).reverse =
      .ok (!blockKeywords.contains (String.ofList name)) := by
  obtain ⟨hfront, hne, hname, hgap, hparams, hgap'⟩ := h
  rw [HeadForm.text] at hascii ⊢
  have hbehind : ∀ c ∈ (code ++ front).reverse.head?, inHeadWord c = false := by
    intro c hc
    rw [List.head?_reverse, List.getLast?_append] at hc
    cases hlast : front.getLast? with
    | none =>
        rw [hlast] at hc
        exact inHeadWord_of_endsPiece (hcalm c hc)
    | some d =>
        rw [hlast] at hc
        exact hfront c (hlast.trans hc)
  have hword : ∀ c ∈ (name.reverse ++ (code ++ front).reverse).head?, Text.isBlank c = false := by
    intro c hc
    rw [List.head?_append_of_ne_nil _ (by simpa using hne), List.head?_reverse] at hc
    have hmem := List.mem_of_getLast? hc
    exact isBlank_of_inHeadWord (hascii c (by simp [hmem])) (hname c hmem)
  obtain ⟨htake, hdrop⟩ :=
    takeWhile_run (fun c hc => hname c (List.mem_reverse.mp hc)) hbehind
  have hblank := (takeWhile_run (fun c hc => hgap c (List.mem_reverse.mp hc)) hword).2
  have hhead :
      (code ++ (front ++ (name ++ (gap ++ '(' :: (params ++ ')' :: gap'))))).reverse.dropWhile
        Text.isBlank = ')' :: (params.reverse ++
          '(' :: (gap.reverse ++ (name.reverse ++ (code ++ front).reverse))) :=
    dropWhile_eq_cons_iff.mpr ⟨gap'.reverse, by simp,
      fun c hc => hgap' c (List.mem_reverse.mp hc), by decide⟩
  have hbefore (before : List Char) :
      beforeParenthesis 1 (params.reverse ++ '(' :: before) = some before :=
    beforeParenthesis_eq_some_iff.mpr
      ⟨params.reverse, rfl, (balanced_iff_opens_reverse params).mp hparams⟩
  have hthin : ((code ++ front).reverse.head?.filter fun c => 1 < c.utf8Size) = none := by
    rw [Option.filter_eq_none_iff]
    intro c hc
    have hmem := List.mem_of_mem_head? hc
    have hthin := utf8Size_of_lt (hascii c (by
      rw [← List.append_assoc]
      exact List.mem_append_left _ (List.mem_reverse.mp hmem)))
    simpa using hthin
  rw [opensFunction_head hhead (hbefore _), hblank, htake, hdrop, hthin, List.reverse_reverse]

theorem opensFunction_words (hcalm : Calm code) (h : (HeadForm.other text).Formed) :
    opensFunction (code ++ text).reverse = .ok false := by
  have hlast {c : Char} {more : List Char} (hc : c = ')' ∨ c = '>') :
      (code ++ text).reverse.dropWhile Text.isBlank ≠ c :: more := by
    intro hdrop
    obtain ⟨run, heq, hrun, -⟩ := dropWhile_eq_cons_iff.mp hdrop
    have hcut : code ++ text = more.reverse ++ c :: run.reverse := by
      rw [← List.reverse_inj, heq]
      simp
    have hblank : AnyBlanks run.reverse := fun d hd => hrun d (List.mem_reverse.mp hd)
    have hother (front : List Char) (htext : text = front ++ c :: run.reverse) : False := by
      obtain ⟨hparen, harrow⟩ := h c front run.reverse htext hblank
      exact hc.elim hparen harrow
    rcases List.append_eq_append_iff.mp hcut with ⟨front, -, htext⟩ | ⟨back, hcode, hback⟩
    · exact hother front htext
    · cases back with
      | nil => exact hother [] hback.symm
      | cons d back =>
          obtain ⟨rfl, hbehind⟩ := List.cons.inj hback
          rcases List.eq_nil_or_concat back with rfl | ⟨back, e, rfl⟩
          · have hmark := hcalm c (by rw [hcode, List.getLast?_concat]; rfl)
            rcases hc with rfl | rfl <;> cases hmark
          · have hend : code = more.reverse ++ c :: back ++ [e] := by rw [hcode]; simp
            have hmark := hcalm e (by rw [hend, List.getLast?_concat]; rfl)
            have hspace := hblank e (by rw [hbehind]; simp)
            rw [isBlank_of_endsPiece hmark] at hspace
            cases hspace
  exact opensFunction_other (fun more => hlast (.inr rfl)) fun inner => hlast (.inl rfl)

theorem BlockHead.opensFunction_eq (h : BlockHead) (hascii : Ascii (code ++ h.text))
    (hcalm : Calm code) : opensFunction (code ++ h.text).reverse = .ok h.isFunction := by
  obtain ⟨form, formed, _⟩ := h
  cases form with
  | named front name gap params gap' => exact opensFunction_named hascii hcalm formed
  | arrow front gap =>
      have hhead : (code ++ (front ++ '=' :: '>' :: gap)).reverse.dropWhile Text.isBlank =
          '>' :: '=' :: (code ++ front).reverse :=
        dropWhile_eq_cons_iff.mpr ⟨gap.reverse, by simp,
          fun c hc => formed c (List.mem_reverse.mp hc), by decide⟩
      exact opensFunction_arrow hhead
  | other text => exact opensFunction_words hcalm formed

/-! ## Blocks around lines that await -/

theorem PlainStatement.stands (s : PlainStatement) (h : Stands code blocks)
    (hascii : Ascii (code ++ s.text)) : Stands (code ++ s.text) blocks := by
  rw [text, ← List.append_assoc] at hascii ⊢
  exact (h.flat s.plain.flat hascii.of_append).plain rfl rfl

theorem AwaitLine.stands (a : AwaitLine) (h : Stands code blocks)
    (hascii : Ascii (code ++ a.text)) :
    Stands (code ++ a.gap) blocks ∧ Stands (code ++ a.text) blocks := by
  refine ⟨h.flat (plain_of_blanks a.blank).flat ?_, h.flat a.plain.flat hascii⟩
  rw [text, ← List.append_assoc] at hascii
  exact hascii.of_append

theorem BlockHead.stands (head : BlockHead) (h : Stands code blocks)
    (hascii : Ascii (code ++ head.text))
    (hflag : opensFunction (code ++ head.text).reverse = .ok flag) :
    Stands (code ++ head.text ++ ['\x7b']) (flag :: blocks) :=
  (h.flat head.plain.flat hascii).opens hflag

theorem BlockHead.exists_stands (head : BlockHead) (h : Stands code blocks)
    (hascii : Ascii (code ++ head.text)) :
    ∃ flag, Stands (code ++ head.text ++ ['\x7b']) (flag :: blocks) := by
  obtain ⟨flag, hflag⟩ := exists_opensFunction hascii
  exact ⟨flag, head.stands h hascii hflag⟩

namespace Outline

theorem text_block (head : BlockHead) (body next : Outline) : code ++ (block head body next).text =
    code ++ head.text ++ ['\x7b'] ++ body.text ++ ['\x7d'] ++ next.text := by
  simp [text]

theorem exists_mem_befores_block {P : List Char → Prop} (head : BlockHead) (body next : Outline) :
    (∃ before ∈ (block head body next).befores, P (code ++ before)) ↔
      (∃ before ∈ body.befores, P (code ++ head.text ++ ['\x7b'] ++ before)) ∨
        ∃ before ∈ next.befores,
          P (code ++ head.text ++ ['\x7b'] ++ body.text ++ ['\x7d'] ++ before) := by
  simp [befores, or_and_right, exists_or]

theorem exists_mem_awaits_block (head : BlockHead) (body next : Outline) :
    (∃ around ∈ (block head body next).awaits, ∀ h ∈ around, h.isFunction = false) ↔
      (head.isFunction = false ∧ ∃ around ∈ body.awaits, ∀ h ∈ around, h.isFunction = false) ∨
        ∃ around ∈ next.awaits, ∀ h ∈ around, h.isFunction = false := by
  simp only [awaits, List.mem_append, List.mem_map, or_and_right, exists_or]
  refine or_congr_left ⟨?_, ?_⟩
  · rintro ⟨-, ⟨around, hmem, rfl⟩, hall⟩
    rw [List.forall_mem_cons] at hall
    exact ⟨hall.1, around, hmem, hall.2⟩
  · rintro ⟨hplain, around, hmem, hall⟩
    exact ⟨_, ⟨around, hmem, rfl⟩, List.forall_mem_cons.mpr ⟨hplain, hall⟩⟩

/-- What an outline opens it closes. -/
theorem stands (o : Outline) (h : Stands code blocks) (hascii : Ascii (code ++ o.text)) :
    Stands (code ++ o.text) blocks := by
  induction o generalizing code blocks with
  | done gap blank => exact h.flat (plain_of_blanks blank).flat hascii
  | statement s next ih =>
      rw [text, ← List.append_assoc] at hascii ⊢
      exact ih (s.stands h hascii.of_append) hascii
  | line a next ih =>
      rw [text, ← List.append_assoc] at hascii ⊢
      exact ih (a.stands h hascii.of_append).2 hascii
  | block head body next ihbody ihnext =>
      rw [text_block] at hascii ⊢
      have hbody := hascii.of_append.of_append
      obtain ⟨flag, hwithin⟩ := head.exists_stands h hbody.of_append.of_append
      exact ihnext (ihbody hwithin hbody).closes hascii

/-- The blocks around an outline are around each of its lines that await. -/
theorem exists_stands (o : Outline) (h : Stands code blocks) (hascii : Ascii (code ++ o.text)) :
    ∀ before ∈ o.befores, ∃ inner, Stands (code ++ before) (inner ++ blocks) := by
  induction o generalizing code blocks with
  | done gap blank => simp [befores]
  | statement s next ih =>
      rw [text, ← List.append_assoc] at hascii
      have hnext := ih (s.stands h hascii.of_append) hascii
      simpa [befores] using hnext
  | line a next ih =>
      rw [text, ← List.append_assoc] at hascii
      obtain ⟨hhere, hbehind⟩ := a.stands h hascii.of_append
      simp only [befores, List.mem_cons, List.mem_map]
      rintro _ (rfl | ⟨before, hmem, rfl⟩)
      · exact ⟨[], hhere⟩
      · rw [← List.append_assoc]
        exact ih hbehind hascii before hmem
  | block head body next ihbody ihnext =>
      rw [text_block] at hascii
      have hbody := hascii.of_append.of_append
      obtain ⟨flag, hwithin⟩ := head.exists_stands h hbody.of_append.of_append
      have hclosed := (body.stands hwithin hbody).closes
      intro before hbefore
      rcases (exists_mem_befores_block (P := (· = code ++ before)) head body next).mp
        ⟨before, hbefore, rfl⟩ with ⟨within, hmem, heq⟩ | ⟨later, hmem, heq⟩
      · obtain ⟨inner, hinner⟩ := ihbody hwithin hbody within hmem
        exact ⟨inner ++ [flag], by rw [← heq, List.append_assoc inner]; exact hinner⟩
      · obtain ⟨inner, hinner⟩ := ihnext hclosed hascii later hmem
        exact ⟨inner, by rw [← heq]; exact hinner⟩

/-- Within a function all lines that await are. -/
theorem not_outside (o : Outline) (h : Stands code blocks) (hascii : Ascii (code ++ o.text))
    (hmem : true ∈ blocks) :
    ¬ ∃ before ∈ o.befores, insideFunction (code ++ before) = .ok false := by
  rintro ⟨before, hbefore, houtside⟩
  obtain ⟨inner, hstands⟩ := o.exists_stands h hascii before hbefore
  rw [hstands.insideFunction_eq] at houtside
  simp [hmem] at houtside

/-- Outside of functions, those lines that await are outside which the outline has no function
around. -/
theorem exists_outside_iff (o : Outline) (h : Stands code blocks) (hascii : Ascii (code ++ o.text))
    (hcalm : Calm code) (hmem : true ∉ blocks) :
    (∃ before ∈ o.befores, insideFunction (code ++ before) = .ok false) ↔
      ∃ around ∈ o.awaits, ∀ head ∈ around, head.isFunction = false := by
  induction o generalizing code blocks with
  | done gap blank => simp [befores, awaits]
  | statement s next ih =>
      rw [text, ← List.append_assoc] at hascii
      have hclosed : Calm (code ++ s.text) := by
        rw [PlainStatement.text, ← List.append_assoc]
        exact calm_concat rfl
      have hnext := ih (s.stands h hascii.of_append) hascii hclosed hmem
      simpa [befores, awaits] using hnext
  | line a next ih =>
      -- the heads behind the line may be taken for others, but the line is outside itself
      rw [text, ← List.append_assoc] at hascii
      have hhere := (a.stands h hascii.of_append).1
      refine iff_of_true ⟨a.gap, by simp [befores], ?_⟩ ⟨[], by simp [awaits], by simp⟩
      rw [hhere.insideFunction_eq]
      simpa using hmem
  | block head body next ihbody ihnext =>
      rw [text_block] at hascii
      have hbody := hascii.of_append.of_append
      have hflag := head.opensFunction_eq hbody.of_append.of_append hcalm
      have hwithin := head.stands h hbody.of_append.of_append hflag
      have hclosed := (body.stands hwithin hbody).closes
      have hnext := ihnext hclosed hascii (calm_concat rfl) hmem
      rw [exists_mem_befores_block (P := fun text => insideFunction text = .ok false), hnext,
        exists_mem_awaits_block]
      refine or_congr_left ?_
      cases hfunction : head.isFunction with
      | false =>
          rw [hfunction] at hwithin
          have hinside := ihbody hwithin hbody (calm_concat rfl) (by simpa using hmem)
          simpa using hinside
      | true =>
          rw [hfunction] at hwithin
          have hnone := body.not_outside hwithin hbody (List.mem_cons_self ..)
          simpa using hnone

theorem prefix_of_mem_befores (o : Outline) : ∀ before ∈ o.befores, before <+: o.text := by
  induction o with
  | done gap blank => simp [befores]
  | statement s next ih =>
      simp only [befores, text, List.mem_map]
      rintro _ ⟨before, hmem, rfl⟩
      exact (List.prefix_append_right_inj s.text).mpr (ih before hmem)
  | line a next ih =>
      simp only [befores, text, List.mem_cons, List.mem_map]
      rintro _ (rfl | ⟨before, hmem, rfl⟩)
      · exact (List.prefix_append a.gap _).trans (List.prefix_append a.text next.text)
      · exact (List.prefix_append_right_inj a.text).mpr (ih before hmem)
  | block head body next ihbody ihnext =>
      simp only [befores, text, List.mem_append, List.mem_map]
      rintro _ (⟨before, hmem, rfl⟩ | ⟨before, hmem, rfl⟩)
      · refine (List.prefix_append_right_inj head.text).mpr (List.cons_prefix_cons.mpr ⟨rfl, ?_⟩)
        exact (ihbody before hmem).trans (List.prefix_append ..)
      · refine (List.prefix_append_right_inj head.text).mpr (List.cons_prefix_cons.mpr ⟨rfl, ?_⟩)
        refine (List.prefix_append_right_inj body.text).mpr (List.cons_prefix_cons.mpr ⟨rfl, ?_⟩)
        exact ihnext before hmem

end Outline

/-! ## The decision -/

theorem anyOutside_eq {places : List Nat} {b : Bool}
    (hall : ∀ place ∈ places, ∃ b, insideFunction (code.take place) = .ok b)
    (hb : (∃ place ∈ places, insideFunction (code.take place) = .ok false) ↔ b = true) :
    anyOutside code places = .ok b := by
  induction places with
  | nil =>
      obtain rfl : b = false := by simpa using hb
      rfl
  | cons place places ih =>
      rw [List.forall_mem_cons] at hall
      obtain ⟨⟨inside, hinside⟩, hlater⟩ := hall
      rw [anyOutside, hinside]
      cases inside with
      | false =>
          rw [hb.mp ⟨place, List.mem_cons_self .., hinside⟩]
      | true => exact ih hlater (by simpa [hinside] using hb)

theorem Outline.awaitPlaces_eq (o : Outline) (h : o.Lined []) :
    awaitPlaces o.text = o.befores.map List.length := by
  have hquiet : ¬ Awaits o.text [] := fun h =>
    not_hasWord_blanks (by decide) (List.forall_mem_nil _) h.hasWord
  have hend (offset : Nat) : findAll awaiting (past none o.text) offset 0 [] = [] := by
    have hnone := awaiting_eq_none_of_end hquiet (List.append_nil []).symm
    rw [past_nil] at hnone
    simp [findAll, hnone]
  have hfound := findAll_of_finds (o.finds h 0 (.inl rfl))
  rw [past_nil, List.append_nil, hend, List.append_nil] at hfound
  rw [Scan.awaitPlaces_eq, hfound, places, List.map_map]
  exact List.map_congr_left fun before _ => Nat.zero_add before.length

theorem Outline.not_moduleOnly (o : Outline) (h : o.Lined []) :
    matchesSomewhere moduleOnly none o.text = false := by
  have hnone : ∀ c ∈ ([] : List Char).head?, Text.isWord c = false ∧ inIndent c = false := by simp
  have hempty : Plain [] := plain_of_blanks (List.forall_mem_nil _)
  have hend (b : Option Char) : moduleOnly ⟨b, []⟩ = [] :=
    hempty.moduleOnly_eq_nil (b := b) hnone (List.append_nil []).symm
  have hthrough := o.matchesSomewhere_eq h none hnone
  rw [List.append_nil] at hthrough
  rw [hthrough, matchesSomewhere, hend]
  rfl

/-- A function that awaits in a loop over what it awaits, and a block that awaits its result. -/
def sample : Outline :=
  .block
    (.ofBare (.arrow "const go = async (a, (b)) ".toList [' ']) (List.all_eq_true.mp rfl)
      (by decide +kernel))
    (.block
      (.ofBare (.named "\nfor ".toList "await".toList [' '] "const b of a".toList [' '])
        ⟨by simp; decide, by decide, List.all_eq_true.mp rfl, List.all_eq_true.mp rfl,
          balanced_of_not_mem (by decide) (by decide), List.all_eq_true.mp rfl⟩
        (by decide +kernel))
      (.line
        { gap := ['\n']
          lead := [' ']
          tail := " b;".toList
          blank := List.all_eq_true.mp rfl
          fresh := by simp
          begins := .plain (List.all_eq_true.mp rfl)
          apart := ⟨' ', rfl, by decide⟩
          one_line := by decide
          plain := plain_of_bare (by decide +kernel) }
        (.done ['\n'] (List.all_eq_true.mp rfl)))
      (.done ['\n'] (List.all_eq_true.mp rfl)))
    (.block
      (.ofBare (.named ['\n'] "if".toList [' '] "ok".toList [' '])
        ⟨by simp; decide, by decide, List.all_eq_true.mp rfl, List.all_eq_true.mp rfl,
          balanced_of_not_mem (by decide) (by decide), List.all_eq_true.mp rfl⟩
        (by decide +kernel))
      (.line
        { gap := ['\n']
          lead := [' '] ++ ("const".toList ++ ([' '] ++ (['x'] ++ [' '] ++ '=' :: [' '])))
          tail := " go();".toList
          blank := List.all_eq_true.mp rfl
          fresh := by simp
          begins := .declaring ⟨['x'], by decide, List.all_eq_true.mp rfl⟩
            (List.all_eq_true.mp rfl) (by decide) (by decide) (List.all_eq_true.mp rfl)
            (List.all_eq_true.mp rfl) (List.all_eq_true.mp rfl)
          apart := ⟨' ', rfl, by decide⟩
          one_line := by decide
          plain := plain_of_bare (by decide +kernel) }
        (.done ['\n'] (List.all_eq_true.mp rfl)))
      (.done [] (List.forall_mem_nil _)))

theorem sample_lined : sample.Lined [] := by
  have hline : ∀ c ∈ ['\n'].head?, c = '\n' := by simp
  exact ⟨quiet_of_loopsOnly (by decide +kernel),
    ⟨quiet_of_loopsOnly (by decide +kernel), ⟨nofun, hline, trivial⟩, trivial⟩,
    quiet_of_loopsOnly (by decide +kernel), ⟨nofun, hline, trivial⟩, trivial⟩

end ScriptSandbox.Scan
