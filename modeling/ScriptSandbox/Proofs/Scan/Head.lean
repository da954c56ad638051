import ScriptSandbox.Scan.ModuleSyntax

/-!
# Heads before braces

What makes `opensFunction` fail, said of the text before the brace as it is read. The function walks
that text backwards and counts parentheses; `SplitsWord` cuts it into its parts instead: a word, a
pair of parentheses with a balanced text between them, and blanks around both. The two agree
(`opensFunction_eq_error_iff`), so the fault is a matter of one character, the last one before the
word.
-/

namespace ScriptSandbox.Scan

/-! ## The last element that fails a test -/

/-- What is left of a text without the characters of a class at its start begins with the first one
outside the class. -/
theorem dropWhile_eq_cons_iff {p : Char → Bool} {cs rest : List Char} {c : Char} :
    cs.dropWhile p = c :: rest ↔
      ∃ run, cs = run ++ c :: rest ∧ (∀ x ∈ run, p x = true) ∧ p c = false := by
  constructor
  · intro h
    refine ⟨cs.takeWhile p, ?_, fun x hx => List.all_eq_true.mp List.all_takeWhile x hx, ?_⟩
    · rw [← h, List.takeWhile_append_dropWhile]
    · simpa [h] using List.head?_dropWhile_not p cs
  · rintro ⟨run, rfl, hrun, hc⟩
    rw [List.dropWhile_append_of_pos hrun, List.dropWhile_cons_of_neg (by simp [hc])]

/-- Two classes of characters in turn: a run of the first, then a run of the second that does not
begin with a character of the first. -/
theorem dropWhile_dropWhile_eq_cons_iff {p q : Char → Bool} {cs rest : List Char} {c : Char} :
    (cs.dropWhile p).dropWhile q = c :: rest ↔
      ∃ gap word, cs = gap ++ (word ++ c :: rest) ∧ (∀ x ∈ gap, p x = true) ∧
        (∀ x ∈ word, q x = true) ∧ (∀ x ∈ (word ++ [c]).head?, p x = false) ∧ q c = false := by
  rw [dropWhile_eq_cons_iff]
  constructor
  · rintro ⟨word, hcs, hword, hc⟩
    cases word with
    | nil =>
        obtain ⟨gap, heq, hgap, hfirst⟩ := dropWhile_eq_cons_iff.mp hcs
        exact ⟨gap, [], heq, hgap, hword, by simpa using hfirst, hc⟩
    | cons d word =>
        obtain ⟨gap, heq, hgap, hfirst⟩ := dropWhile_eq_cons_iff.mp hcs
        exact ⟨gap, d :: word, heq, hgap, hword, by simpa using hfirst, hc⟩
  · rintro ⟨gap, word, rfl, hgap, hword, hfirst, hc⟩
    refine ⟨word, ?_, hword, hc⟩
    rw [List.dropWhile_append_of_pos hgap]
    cases word with
    | nil => exact List.dropWhile_cons_of_neg (by simpa using hfirst)
    | cons d word => exact List.dropWhile_cons_of_neg (by simpa using hfirst)

/-! ## Parentheses -/

/-- Whether the parentheses of a text match each other: nothing is opened, counted from the end,
that is not closed after it, and all is opened that is closed. -/
def Balanced (cs : List Char) : Prop :=
  cs.count '(' = cs.count ')' ∧ ∀ tail, tail <:+ cs → tail.count '(' ≤ tail.count ')'

/-- Whether a text, given backwards, opens `depth` more parentheses than it closes, and never has
more of them open on the way. -/
def Opens (depth : Nat) (passed : List Char) : Prop :=
  passed.count '(' = depth + passed.count ')' ∧
    ∀ start, start <+: passed → start.count '(' ≤ depth + start.count ')'

theorem balanced_iff_opens_reverse (cs : List Char) : Balanced cs ↔ Opens 0 cs.reverse := by
  simp only [Balanced, Opens, List.count_reverse, Nat.zero_add]
  refine and_congr_right fun _ => ⟨fun h start hstart => ?_, fun h tail htail => ?_⟩
  · simpa using h start.reverse (by simpa using List.reverse_suffix.mpr hstart)
  · simpa using h tail.reverse (List.reverse_prefix.mpr htail)

theorem opens_nil {depth : Nat} : Opens depth [] ↔ depth = 0 := by
  simp only [Opens, List.count_nil, List.prefix_nil]
  constructor
  · rintro ⟨h, -⟩; omega
  · rintro rfl; exact ⟨rfl, by rintro start rfl; exact Nat.le_refl _⟩

/-- What a text opens, by its first character. -/
theorem opens_cons {depth : Nat} {c : Char} {cs : List Char} :
    Opens depth (c :: cs) ↔
      (c :: cs).count '(' = depth + (c :: cs).count ')' ∧
        ∀ start, start <+: cs → (c :: start).count '(' ≤ depth + (c :: start).count ')' := by
  refine and_congr_right fun _ => ⟨fun h start hstart => ?_, fun h start hstart => ?_⟩
  · exact h (c :: start) (List.prefix_cons_iff.mpr (Or.inr ⟨start, rfl, hstart⟩))
  · rcases List.prefix_cons_iff.mp hstart with rfl | ⟨rest, rfl, hrest⟩
    · exact Nat.zero_le _
    · exact h rest hrest

theorem opens_closing {depth : Nat} {cs : List Char} :
    Opens depth (')' :: cs) ↔ Opens (depth + 1) cs := by
  have hcount (xs : List Char) : (')' :: xs).count '(' = xs.count '(' ∧
      (')' :: xs).count ')' = xs.count ')' + 1 := by simp
  rw [opens_cons, Opens]
  simp only [hcount]
  refine and_congr (by omega) (forall_congr' fun start => forall_congr' fun _ => by omega)

theorem opens_opening {depth : Nat} {cs : List Char} :
    Opens depth ('(' :: cs) ↔ ∃ d, depth = d + 1 ∧ Opens d cs := by
  have hcount (xs : List Char) : ('(' :: xs).count '(' = xs.count '(' + 1 ∧
      ('(' :: xs).count ')' = xs.count ')' := by simp
  rw [opens_cons]
  simp only [hcount]
  constructor
  · rintro ⟨htotal, hstart⟩
    obtain ⟨d, rfl⟩ : ∃ d, depth = d + 1 :=
      Nat.exists_eq_succ_of_ne_zero (by have := hstart [] List.nil_prefix; simp at this; omega)
    exact ⟨d, rfl, by omega, fun start h => by have := hstart start h; omega⟩
  · rintro ⟨d, rfl, htotal, hstart⟩
    exact ⟨by omega, fun start h => by have := hstart start h; omega⟩

theorem opens_other {depth : Nat} {c : Char} {cs : List Char} (hclosing : c ≠ ')')
    (hopening : c ≠ '(') : Opens depth (c :: cs) ↔ Opens depth cs := by
  have hcount (xs : List Char) : (c :: xs).count '(' = xs.count '(' ∧
      (c :: xs).count ')' = xs.count ')' := by
    simp [hclosing, hopening]
  rw [opens_cons, Opens]
  simp only [hcount]

/-- The first character either is the parenthesis searched for or belongs to what is passed. -/
theorem exists_opens_cons {depth : Nat} {c : Char} {cs before : List Char} :
    (∃ passed, c :: cs = passed ++ '(' :: before ∧ Opens depth passed) ↔
      (c = '(' ∧ cs = before ∧ depth = 0) ∨
        ∃ passed, cs = passed ++ '(' :: before ∧ Opens depth (c :: passed) := by
  constructor
  · rintro ⟨passed, heq, h⟩
    cases passed with
    | nil =>
        obtain ⟨rfl, rfl⟩ := List.cons.inj heq
        exact Or.inl ⟨rfl, rfl, opens_nil.mp h⟩
    | cons d passed =>
        obtain ⟨rfl, rfl⟩ := List.cons.inj heq
        exact Or.inr ⟨passed, rfl, h⟩
  · rintro (⟨rfl, rfl, rfl⟩ | ⟨passed, rfl, h⟩)
    · exact ⟨[], rfl, opens_nil.mpr rfl⟩
    · exact ⟨c :: passed, rfl, h⟩

/-- The search for the parenthesis that matches one closed `depth + 1` levels up passes over a text
that opens the others. -/
theorem beforeParenthesis_eq_some_iff {depth : Nat} {inner before : List Char} :
    beforeParenthesis (depth + 1) inner = some before ↔
      ∃ passed, inner = passed ++ '(' :: before ∧ Opens depth passed := by
  induction inner generalizing depth with
  | nil => simp [beforeParenthesis]
  | cons c cs ih =>
      rw [exists_opens_cons]
      by_cases hclosing : c = ')'
      · subst hclosing
        simp only [beforeParenthesis, ih, opens_closing, Char.reduceEq, false_and, false_or]
      by_cases hopening : c = '('
      · subst hopening
        simp only [beforeParenthesis, opens_opening, true_and]
        cases depth with
        | zero => simp
        | succ d => simp [ih]
      · rw [beforeParenthesis, ih] <;> try assumption
        simp only [hopening, false_and, false_or, opens_other hclosing hopening]

/-! ## Words before heads -/

/-- Whether the text before a brace ends with a head in parentheses, and `c` is the last character
before the head's word and takes more than a byte. The word may be missing; then `c` is the last
character before the head that is no blank. -/
def SplitsWord (head : List Char) (c : Char) : Prop :=
  ∃ front word gap params tail,
    head = front ++ c :: word ++ gap ++ '(' :: params ++ ')' :: tail ∧
      Balanced params ∧
      (∀ x ∈ gap ++ tail, Text.isBlank x = true) ∧
      (∀ x ∈ word, inHeadWord x = true) ∧
      (∀ x ∈ (c :: word).getLast?, Text.isBlank x = false) ∧
      inHeadWord c = false ∧ 1 < c.utf8Size

/-- What is said of a brace after a parenthesised head: a fault if a character of several bytes
stands before the head's word, else whether the word is no keyword of a plain block. -/
theorem opensFunction_head {head inner before : List Char}
    (hhead : head.dropWhile Text.isBlank = ')' :: inner)
    (hbefore : beforeParenthesis 1 inner = some before) :
    opensFunction head =
      match (((before.dropWhile Text.isBlank).dropWhile inHeadWord).head?.filter
        fun c => 1 < c.utf8Size) with
      | some c => .error ⟨c⟩
      | none => .ok (!blockKeywords.contains
          (String.ofList ((before.dropWhile Text.isBlank).takeWhile inHeadWord).reverse)) := by
  rw [opensFunction, hhead]
  simp only [hbefore]
  cases ((before.dropWhile Text.isBlank).dropWhile inHeadWord).head? with
  | none => rfl
  | some c => by_cases hwide : 1 < c.utf8Size <;> simp [hwide, Option.filter]

theorem opensFunction_arrow {head more : List Char}
    (hhead : head.dropWhile Text.isBlank = '>' :: '=' :: more) : opensFunction head = .ok true := by
  simp only [opensFunction, hhead]

theorem opensFunction_other {head : List Char}
    (harrow : ∀ more, head.dropWhile Text.isBlank ≠ '>' :: '=' :: more)
    (hhead : ∀ inner, head.dropWhile Text.isBlank ≠ ')' :: inner) :
    opensFunction head = .ok false := by
  rw [opensFunction]
  split
  · next more heq => exact absurd heq (harrow more)
  · next inner heq => exact absurd heq (hhead inner)
  · rfl

/-- A brace that is not preceded by a parenthesised head is no fault. -/
theorem exists_head_of_opensFunction_error {head : List Char} {e : SplitCharacter}
    (h : opensFunction head = .error e) :
    ∃ inner before, head.dropWhile Text.isBlank = ')' :: inner ∧
      beforeParenthesis 1 inner = some before := by
  rw [opensFunction] at h
  split at h
  case h_1 => cases h
  case h_2 inner hhead =>
    cases hbefore : beforeParenthesis 1 inner with
    | none => simp [hbefore] at h
    | some before => exact ⟨inner, before, hhead, hbefore⟩
  case h_3 => cases h

/-- The character that a fault names stands before the word of the head. -/
theorem drop_of_opensFunction_error {head inner before : List Char} {c : Char}
    (h : opensFunction head = .error ⟨c⟩) (hhead : head.dropWhile Text.isBlank = ')' :: inner)
    (hbefore : beforeParenthesis 1 inner = some before) :
    ∃ front, (before.dropWhile Text.isBlank).dropWhile inHeadWord = c :: front ∧
      1 < c.utf8Size := by
  rw [opensFunction_head hhead hbefore] at h
  cases hdrop : (before.dropWhile Text.isBlank).dropWhile inHeadWord with
  | nil => simp [hdrop] at h
  | cons d front =>
      by_cases hwide : 1 < d.utf8Size
      · simp only [hdrop, List.head?_cons, Option.filter, hwide, decide_true, if_true,
          Except.error.injEq, SplitCharacter.mk.injEq] at h
        exact ⟨front, by rw [h], h ▸ hwide⟩
      · simp [hdrop, Option.filter, hwide] at h

theorem splitsWord_of_opensFunction_error {head : List Char} {c : Char}
    (h : opensFunction head.reverse = .error ⟨c⟩) : SplitsWord head c := by
  obtain ⟨inner, before, hhead, hbefore⟩ := exists_head_of_opensFunction_error h
  obtain ⟨front, hdrop, hwide⟩ := drop_of_opensFunction_error h hhead hbefore
  obtain ⟨tail, htext, htail, -⟩ := dropWhile_eq_cons_iff.mp hhead
  obtain ⟨passed, rfl, hpassed⟩ := beforeParenthesis_eq_some_iff.mp hbefore
  obtain ⟨gap, word, rfl, hgap, hword, hfirst, hc⟩ := dropWhile_dropWhile_eq_cons_iff.mp hdrop
  refine ⟨front.reverse, word.reverse, gap.reverse, passed.reverse, tail.reverse, ?_, ?_, ?_, ?_,
    ?_, hc, hwide⟩
  · rw [← List.reverse_reverse head, htext]; simp
  · rw [balanced_iff_opens_reverse, List.reverse_reverse]; exact hpassed
  · intro x hx
    rcases List.mem_append.mp hx with hx | hx
    · exact hgap x (List.mem_reverse.mp hx)
    · exact htail x (List.mem_reverse.mp hx)
  · exact fun x hx => hword x (List.mem_reverse.mp hx)
  · rw [← List.head?_reverse]; simpa using hfirst

theorem opensFunction_error_of_splitsWord {head : List Char} {c : Char} (h : SplitsWord head c) :
    opensFunction head.reverse = .error ⟨c⟩ := by
  obtain ⟨front, word, gap, params, tail, rfl, hparams, hblank, hword, hfirst, hc, hwide⟩ := h
  generalize hbefore' : gap.reverse ++ (word.reverse ++ c :: front.reverse) = before
  have hhead : (front ++ c :: word ++ gap ++ '(' :: params ++ ')' :: tail).reverse.dropWhile
      Text.isBlank = ')' :: (params.reverse ++ '(' :: before) :=
    dropWhile_eq_cons_iff.mpr ⟨tail.reverse, by simp [← hbefore'],
      fun x hx => hblank x (List.mem_append_right _ (List.mem_reverse.mp hx)), by decide⟩
  have hbefore : beforeParenthesis 1 (params.reverse ++ '(' :: before) = some before :=
    beforeParenthesis_eq_some_iff.mpr
      ⟨params.reverse, rfl, (balanced_iff_opens_reverse params).mp hparams⟩
  have hdrop : (before.dropWhile Text.isBlank).dropWhile inHeadWord = c :: front.reverse :=
    dropWhile_dropWhile_eq_cons_iff.mpr ⟨gap.reverse, word.reverse, hbefore'.symm,
      fun x hx => hblank x (List.mem_append_left _ (List.mem_reverse.mp hx)),
      fun x hx => hword x (List.mem_reverse.mp hx),
      by rw [← List.head?_reverse] at hfirst; simpa using hfirst, hc⟩
  rw [opensFunction_head hhead hbefore, hdrop]
  simp [Option.filter, hwide]

/-- The walk fails at a brace exactly if the text before it splits a word. -/
theorem opensFunction_eq_error_iff {head : List Char} {c : Char} :
    opensFunction head.reverse = .error ⟨c⟩ ↔ SplitsWord head c :=
  ⟨splitsWord_of_opensFunction_error, opensFunction_error_of_splitsWord⟩

end ScriptSandbox.Scan
