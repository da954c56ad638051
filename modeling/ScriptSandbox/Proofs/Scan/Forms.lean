import ScriptSandbox.Proofs.Scan.Tokens

/-!
# Forms of statements that name a module

A `Form` is all that such a statement consists of besides its specifier, and the pattern of its kind
can match everything that stands before the specifier, whatever the names are and wherever there are
gaps (`Form.leads`).
-/

namespace ScriptSandbox.Scan

open Pattern

/-! ## Syntax -/

/-- A name in a list, perhaps with the one it is given. -/
structure ListItem where
  name : Name
  alias? : Option Name := none

def ListItem.tokens (i : ListItem) : List Token :=
  .word i.name :: (i.alias?.map fun a => [.word .asWord, .word a]).getD []

def itemsTokens : List ListItem → List Token
  | [] => []
  | [i] => i.tokens
  | i :: is => i.tokens ++ .mark .comma :: itemsTokens is

def listTokens (items : List ListItem) : List Token :=
  .mark .braceOpen :: (itemsTokens items ++ [.mark .braceClose])

/-- What is imported besides the default. -/
inductive Names where
  /-- `* as id` -/
  | whole (id : Name)
  /-- `{list}` -/
  | listed (items : List ListItem)

def Names.tokens : Names → List Token
  | .whole id => [.mark .star, .word .asWord, .word id]
  | .listed items => listTokens items

/-- The forms of statements. -/
inductive Form where
  /-- `import Q` -/
  | effect
  /-- `import id from Q` -/
  | default (id : Name)
  /-- `import * as id from Q` and `import {list} from Q` -/
  | names (ns : Names)
  /-- `import id, * as id from Q` and `import id, {list} from Q` -/
  | both (id : Name) (ns : Names)
  /-- `export * from Q` and `export * as id from Q` -/
  | exportAll (alias? : Option Name)
  /-- `export {list} from Q` -/
  | exportList (items : List ListItem)
  /-- `import(Q)` -/
  | call

namespace Form

def isImport : Form → Bool
  | .effect | .default _ | .names _ | .both _ _ => true
  | .exportAll _ | .exportList _ | .call => false

def head : Form → List Token
  | .effect => [.word .importWord]
  | .default id => [.word .importWord, .word id, .word .fromWord]
  | .names ns => .word .importWord :: (ns.tokens ++ [.word .fromWord])
  | .both id ns =>
    .word .importWord :: .word id :: .mark .comma :: (ns.tokens ++ [.word .fromWord])
  | .exportAll alias? =>
    .word .exportWord :: .mark .star ::
      ((alias?.map fun id => [.word .asWord, .word id]).getD [] ++ [.word .fromWord])
  | .exportList items => .word .exportWord :: (listTokens items ++ [.word .fromWord])
  | .call => [.word .importWord, .mark .parenOpen]

def tail : Form → List Token
  | .call => [.mark .parenClose]
  | _ => []

/-- A statement. -/
def tokens (f : Form) (q : Literal) : List Token := f.head ++ .literal q :: f.tail

def callHead : Pattern := all [boundary, word "import", blanks, word "(", blanks]

def pattern : Form → Pattern
  | .effect | .default _ | .names _ | .both _ _ => importHead
  | .exportAll _ | .exportList _ => exportHead
  | .call => callHead

end Form

theorem Form.pattern_of_isImport {f : Form} (h : f.isImport = true) : f.pattern = importHead := by
  cases f with
  | exportAll alias? => cases h
  | exportList items => cases h
  | call => cases h
  | _ => rfl

/-! ## Patterns of heads -/

theorem stops_blanks : Stops blanks := stops_many fun _ => isBlank_of_isQuote

theorem stops_blanks1 : Stops blanks1 := stops_many1 fun _ => isBlank_of_isQuote

theorem stops_name : Stops name := stops_some1 fun κ hκ => by
  simp only [isQuote, Bool.or_eq_true, beq_iff_eq] at hκ
  rcases hκ with (rfl | rfl) | rfl <;> decide

theorem stops_plain {w : String} (h : w.toList.all (!isQuote ·) = true) : Stops (word w) :=
  stops_word fun c hc => by simpa using List.all_eq_true.mp h c hc

theorem stops_bindings : Stops bindings := by
  refine .seq (.opt (stops_all ?_)) (.opt (.alt (stops_all ?_) stops_braced))
  · simp only [List.forall_mem_cons]
    exact ⟨stops_name, stops_blanks, .opt (stops_plain (by decide)), stops_blanks,
      List.forall_mem_nil _⟩
  · simp only [List.forall_mem_cons]
    exact ⟨stops_plain (by decide), stops_blanks, stops_plain (by decide), stops_blanks1,
      stops_name, List.forall_mem_nil _⟩

theorem stops_importHead : Stops importHead := by
  refine stops_all ?_
  simp only [List.forall_mem_cons]
  refine ⟨stops_boundary, stops_plain (by decide), stops_boundary, stops_blanks,
    .opt (stops_all ?_), List.forall_mem_nil _⟩
  simp only [List.forall_mem_cons]
  exact ⟨stops_bindings, stops_blanks, stops_plain (by decide), stops_blanks,
    List.forall_mem_nil _⟩

theorem stops_callHead : Stops Form.callHead := by
  refine stops_all ?_
  simp only [List.forall_mem_cons]
  exact ⟨stops_boundary, stops_plain (by decide), stops_blanks, stops_plain (by decide),
    stops_blanks, List.forall_mem_nil _⟩

theorem stops_exportHead : Stops exportHead := by
  refine stops_all ?_
  simp only [List.forall_mem_cons]
  refine ⟨stops_boundary, stops_plain (by decide), stops_blanks,
    .alt (stops_all ?_) (stops_all ?_), stops_plain (by decide), stops_blanks,
    List.forall_mem_nil _⟩
  · simp only [List.forall_mem_cons]
    refine ⟨stops_plain (by decide), stops_blanks, .opt (stops_all ?_), List.forall_mem_nil _⟩
    simp only [List.forall_mem_cons]
    exact ⟨stops_plain (by decide), stops_blanks1, stops_name, stops_blanks,
      List.forall_mem_nil _⟩
  · simp only [List.forall_mem_cons]
    refine ⟨.opt (stops_all ?_), stops_braced, stops_blanks, List.forall_mem_nil _⟩
    simp only [List.forall_mem_cons]
    exact ⟨stops_plain (by decide), stops_blanks, List.forall_mem_nil _⟩

theorem Form.stops_pattern (f : Form) : Stops f.pattern := by
  cases f
  case exportAll => exact stops_exportHead
  case exportList => exact stops_exportHead
  case call => exact stops_callHead
  all_goals exact stops_importHead

/-! ## Tokens of forms -/

theorem mem_itemsTokens {items : List ListItem} {t : Token} (h : t ∈ itemsTokens items) :
    (∃ n, t = .word n) ∨ t = .mark .comma := by
  have hitem {i : ListItem} (h : t ∈ i.tokens) : ∃ n, t = .word n := by
    rcases i with ⟨n, _ | a⟩
    · exact ⟨n, List.mem_singleton.mp h⟩
    · rcases List.mem_cons.mp h with rfl | h
      · exact ⟨n, rfl⟩
      · rcases List.mem_cons.mp h with rfl | h
        · exact ⟨_, rfl⟩
        · exact ⟨a, List.mem_singleton.mp h⟩
  induction items with
  | nil => exact absurd h List.not_mem_nil
  | cons i is ih =>
      cases is with
      | nil => exact .inl (hitem h)
      | cons j js =>
          rcases List.mem_append.mp h with h | h
          · exact .inl (hitem h)
          · rcases List.mem_cons.mp h with rfl | h
            · exact .inr rfl
            · exact ih h

theorem closed_list (items : List ListItem) {us : List Token} (hus : Spread.Closed us) :
    Spread.Closed (listTokens items ++ us) := by
  have hlist : listTokens items ++ us =
      .mark .braceOpen :: (itemsTokens items ++ .mark .braceClose :: us) := by
    simp [listTokens]
  rw [hlist]
  refine ⟨fun _ => by simp, Spread.closed_append (fun t ht heq => ?_)
    ⟨fun h => (by cases h), hus⟩⟩
  rcases mem_itemsTokens ht with ⟨n, rfl⟩ | rfl <;> cases heq

/-- Whether a token may stand before the specifier of a statement that is no call. -/
def Token.leads : Token → Bool
  | .word _ => true
  | .mark m => m != .parenOpen
  | .literal _ => false

theorem leads_items (items : List ListItem) : ∀ t ∈ itemsTokens items, t.leads = true := by
  intro t ht
  rcases mem_itemsTokens ht with ⟨n, rfl⟩ | rfl <;> rfl

theorem Form.leads_head {f : Form} (hf : f ≠ .call) : ∀ t ∈ f.head, t.leads = true := by
  have hmark {m : Mark} (hm : m ≠ .parenOpen) : (Token.mark m).leads = true := by
    simpa [Token.leads] using hm
  have hword (n : Name) : (Token.word n).leads = true := rfl
  have hlist (items : List ListItem) : ∀ t ∈ listTokens items, t.leads = true := by
    simp only [listTokens, List.forall_mem_cons, List.forall_mem_append]
    exact ⟨hmark (by decide), leads_items items, hmark (by decide), List.forall_mem_nil _⟩
  have hnames (ns : Names) : ∀ t ∈ ns.tokens, t.leads = true := by
    cases ns with
    | whole id => simp [Names.tokens, hword, hmark]
    | listed items => exact hlist items
  cases f with
  | exportAll alias? => cases alias? <;> simp [Form.head, hword, hmark]
  | names ns => simpa [Form.head, hword, or_imp, forall_and] using hnames ns
  | both id ns => simpa [Form.head, hword, hmark, or_imp, forall_and] using hnames ns
  | exportList items => simpa [Form.head, hword, or_imp, forall_and] using hlist items
  | call => exact absurd rfl hf
  | _ => simp [Form.head, hword]

/-- No specifier stands before the specifier. -/
theorem Form.literal_not_mem_head (f : Form) (q : Literal) : .literal q ∉ f.head := fun h => by
  by_cases hf : f = .call
  · subst hf
    simp [Form.head] at h
  · have hleads := Form.leads_head hf _ h
    cases hleads

theorem Form.parenOpen_not_mem_head {f : Form} (hf : f ≠ .call) : .mark .parenOpen ∉ f.head :=
  fun h => by
    have hleads := Form.leads_head hf _ h
    cases hleads

/-- Lists are closed before the specifier. -/
theorem Form.closed_head (f : Form) : Spread.Closed f.head := by
  cases f with
  | names ns =>
      cases ns with
      | whole id => simp [Form.head, Names.tokens, Spread.Closed]
      | listed items => exact ⟨fun h => (by cases h), closed_list items (by simp [Spread.Closed])⟩
  | both id ns =>
      refine ⟨fun h => (by cases h), fun h => (by cases h), fun h => (by cases h), ?_⟩
      cases ns with
      | whole id => simp [Names.tokens, Spread.Closed]
      | listed items => exact closed_list items (by simp [Spread.Closed])
  | exportAll alias? => cases alias? <;> simp [Form.head, Spread.Closed]
  | exportList items => exact ⟨fun h => (by cases h), closed_list items (by simp [Spread.Closed])⟩
  | _ => simp [Form.head, Spread.Closed]

theorem isBrace_of_mem_items {items : List ListItem} {t : Token} (h : t ∈ itemsTokens items) :
    ∀ c ∈ t.text, isBrace c = false := by
  rcases mem_itemsTokens h with ⟨n, rfl⟩ | rfl
  · exact fun c hc => isBrace_of_inName (n.2.2 c hc)
  · exact List.forall_mem_singleton.mpr rfl

/-! ## Heads match what stands before a specifier -/

section Leads

variable {b : Option Char} {afterWord : Bool} {g cs rest : List Char} {us : List Token}

theorem head?_of_token {t : Token} {c : Char} (hc : (t.text ++ rest).head? = some c) :
    Text.isBlank c = false ∧ (t.isWord = false → Text.isWord c = false) := by
  cases t with
  | word n =>
      obtain ⟨d, ds, hn⟩ := List.exists_cons_of_ne_nil n.2.1
      have hd := n.2.2 d (hn ▸ List.mem_cons_self ..)
      rw [Token.text, hn] at hc
      obtain rfl := Option.some.inj hc
      exact ⟨isBlank_of_inName hd, fun h => by cases h⟩
  | mark m =>
      obtain rfl := Option.some.inj hc
      cases m <;> decide
  | literal q =>
      obtain rfl := Option.some.inj hc
      exact ⟨isBlank_of_isQuote q.isQuote, fun _ => isWord_of_isQuote q.isQuote⟩

theorem passes_name (n : Name) : Passes name b n.1 rest := passes_some1 n.2.1 n.2.2

theorem passes_blanks {t : Token} (hg : AnyBlanks g) : Passes blanks b g (t.text ++ rest) :=
  passes_many hg fun _ hc => (head?_of_token hc).1

theorem passes_blanks_nil {t : Token} : Passes blanks b [] (t.text ++ rest) :=
  passes_blanks (List.forall_mem_nil _)

theorem passes_blanks_end (hg : AnyBlanks g) : Passes blanks b g [] :=
  passes_many hg fun _ hc => by cases hc

theorem passes_boundary_after {t : Token} {c : Char}
    (hb : b = some c) (hc : Text.isWord c = true) (hg : AnyBlanks g)
    (hapart : t.isWord = true → g ≠ []) : Passes boundary b [] (g ++ (t.text ++ rest)) := by
  refine passes_boundary ?_
  have hnext : (g ++ (t.text ++ rest)).head?.any Text.isWord = false := by
    cases g with
    | nil =>
        have hword : t.isWord = false := Bool.eq_false_iff.mpr fun hword => hapart hword rfl
        cases hhead : (t.text ++ rest).head? with
        | none => exact congrArg (Option.any Text.isWord) hhead
        | some d =>
            exact (congrArg (Option.any Text.isWord) hhead).trans ((head?_of_token hhead).2 hword)
    | cons d g => exact isWord_of_isBlank (hg d (List.mem_cons_self ..))
  rw [hnext, hb]
  simp [hc]

/-- The end of a head: the word before a specifier, and blanks. -/
theorem passes_from (hg : AnyBlanks g) :
    Passes (all [word "from", blanks]) b ((Token.word .fromWord).text ++ g) [] :=
  passes_all_cons (passes_word rfl) (passes_all_one (passes_blanks_end hg))

/-- A list in braces is matched whatever stands around it. -/
theorem passes_list {items : List ListItem}
    (h : Spread AnyBlanks afterWord (listTokens items ++ us) cs) :
    ∃ g list back, cs = g ++ (list ++ back) ∧ AnyBlanks g ∧ Spread AnyBlanks false us back ∧
      (∃ ds, list = (Token.mark .braceOpen).text ++ ds) ∧ ∀ b rest, Passes braced b list rest := by
  obtain ⟨g, cs, rfl, hg, -, h⟩ := Spread.cons_iff.mp h
  have hlist : Spread AnyBlanks (Token.mark .braceOpen).isWord
      (itemsTokens items ++ .mark .braceClose :: us) cs := by simpa using h
  obtain ⟨inner, cs, rfl, hinner, h⟩ := hlist.split
  obtain ⟨g₁, cs, rfl, hg₁, -, h⟩ := Spread.cons_iff.mp h
  refine ⟨g, (Token.mark .braceOpen).text ++ ((inner ++ g₁) ++ (Token.mark .braceClose).text), cs,
    by simp, hg, h, ⟨_, rfl⟩, fun b rest => ?_⟩
  have hitems := hinner.forall_mem (P := fun c => isBrace c = false)
    (fun g hg c hc => isBrace_of_isBlank (hg c hc)) fun t ht => isBrace_of_mem_items ht
  have hplain : ∀ c ∈ inner ++ g₁, (c != '\x7b' && c != '\x7d') = true := by
    intro c hc
    have hbrace : isBrace c = false :=
      (List.mem_append.mp hc).elim (hitems c) fun hc => isBrace_of_isBlank (hg₁ c hc)
    simpa [isBrace, bne, Bool.or_eq_false_iff] using hbrace
  exact passes_all_cons (passes_one rfl) (passes_all_cons
    (passes_many hplain fun c hc => by obtain rfl := Option.some.inj hc; rfl)
    (passes_all_one (passes_one rfl)))

/-- What is imported besides the default is matched whatever stands around it. -/
theorem Names.passes {ns : Names} (h : Spread AnyBlanks afterWord (ns.tokens ++ us) cs) :
    ∃ g names back ends, cs = g ++ (names ++ back) ∧ AnyBlanks g ∧
      Spread AnyBlanks ends us back ∧ (∃ m ds, names = (Token.mark m).text ++ ds) ∧
      ∀ b rest, Passes (alt (all [word "*", blanks, word "as", blanks1, name]) braced) b names
        rest := by
  cases ns with
  | whole id =>
      obtain ⟨g, cs, rfl, hg, -, h⟩ := Spread.cons_iff.mp h
      obtain ⟨g₁, cs, rfl, hg₁, -, h⟩ := Spread.cons_iff.mp h
      obtain ⟨g₂, cs, rfl, hg₂, hapart, h⟩ := Spread.cons_iff.mp h
      refine ⟨g, (Token.mark .star).text ++ (g₁ ++ ((Token.word .asWord).text ++ (g₂ ++ id.1))), cs,
        true, by simp [Token.text], hg, h, ⟨.star, _, rfl⟩, fun b rest => .alt_left ?_⟩
      refine passes_all_cons (passes_word rfl) (passes_all_cons ?_
        (passes_all_cons (passes_word rfl) (passes_all_cons ?_ (passes_all_one (passes_name id)))))
      · rw [List.append_assoc]
        exact passes_blanks hg₁
      · exact passes_many1 (hapart rfl rfl) hg₂ fun _ hc => (head?_of_token (t := .word id) hc).1
  | listed items =>
      obtain ⟨g, list, back, rfl, hg, h, ⟨ds, hds⟩, hlist⟩ := passes_list h
      exact ⟨g, list, back, false, rfl, hg, h, ⟨.braceOpen, ds, hds⟩, fun b rest =>
        .alt_right (hlist b rest)⟩

/-- What a pattern leads through: blanks, and then a text that it can match to its end. -/
def Leads (p : Pattern) (cs : List Char) : Prop :=
  ∃ g head, cs = g ++ head ∧ AnyBlanks g ∧ head ≠ [] ∧
    ∀ b : Option Char, b.any Text.isWord = false → Passes p b head []

theorem word_append_ne_nil (n : Name) (cs : List Char) : (Token.word n).text ++ cs ≠ [] :=
  List.append_ne_nil_of_left_ne_nil n.2.1 cs

theorem passes_boundary_before {w : String} {c : Char} {ds : List Char} (hw : w.toList = c :: ds)
    (hc : Text.isWord c = true) (hb : b.any Text.isWord = false) :
    Passes boundary b [] (w.toList ++ rest) := by
  rw [hw]
  exact passes_boundary (by simp [hb, hc])

/-! ### Imports -/

theorem passes_default (id : Name) {t : Token} (hg : AnyBlanks g) :
    Passes (all [bindings, blanks]) b (id.1 ++ g) (t.text ++ rest) := by
  have hmore : Passes (all [opt (word ","), blanks]) (past (past b id.1) g) [] (t.text ++ rest) :=
    passes_all_zero passes_opt_nil (passes_all_one passes_blanks_nil)
  have hname : Passes (all [name, blanks, opt (word ","), blanks]) b (id.1 ++ g) (t.text ++ rest) :=
    passes_all_cons (passes_name id) ((passes_blanks hg).seq_nil hmore)
  exact (hname.opt.seq_nil passes_opt_nil).seq_nil (passes_all_one passes_blanks_nil)

theorem passes_names {names : List Char} {t : Token}
    (hnames : ∀ b rest, Passes (alt (all [word "*", blanks, word "as", blanks1, name]) braced) b
      names rest) (hg : AnyBlanks g) :
    Passes (all [bindings, blanks]) b (names ++ g) (t.text ++ rest) :=
  passes_all_cons (passes_opt_nil.seq (.opt (hnames b _))) (passes_all_one (passes_blanks hg))

theorem passes_both (id : Name) {g₁ g₂ names : List Char} {m : Mark} {ds : List Char} {t : Token}
    (hg₁ : AnyBlanks g₁) (hg₂ : AnyBlanks g₂) (hm : names = (Token.mark m).text ++ ds)
    (hnames : ∀ b rest, Passes (alt (all [word "*", blanks, word "as", blanks1, name]) braced) b
      names rest) (hg : AnyBlanks g) :
    Passes (all [bindings, blanks]) b
      ((id.1 ++ (g₁ ++ ((Token.mark .comma).text ++ g₂))) ++ names ++ g) (t.text ++ rest) := by
  have hname : Passes (all [name, blanks, opt (word ","), blanks]) b
      (id.1 ++ (g₁ ++ ((Token.mark .comma).text ++ g₂))) (names ++ (g ++ (t.text ++ rest))) := by
    refine passes_all_cons (passes_name id) (passes_all_cons ?_ (passes_all_cons
      (Passes.opt (passes_word rfl)) (passes_all_one ?_)))
    · rw [List.append_assoc]
      exact passes_blanks hg₁
    · rw [hm, List.append_assoc]
      exact passes_blanks hg₂
  exact passes_all_cons (hname.opt.seq (.opt (hnames _ _))) (passes_all_one (passes_blanks hg))

/-- A head whose bindings end with the blanks before `from`. -/
theorem passes_clause {clause : List Char}
    (hclause : Passes (all [bindings, blanks]) b clause ((Token.word .fromWord).text ++ g))
    (hg : AnyBlanks g) :
    Passes (opt (all [bindings, blanks, word "from", blanks])) b
      (clause ++ ((Token.word .fromWord).text ++ g)) [] := by
  have hwhole : Passes (all [bindings, blanks]) b clause
      ((Token.word .fromWord).text ++ g ++ []) := by rwa [List.append_nil]
  exact .opt (passes_all_append hwhole (passes_from hg))

theorem passes_importHead {clause : List Char}
    (hnext : Passes boundary (some 't') [] (g ++ clause)) (hg : Passes blanks (some 't') g clause)
    (hclause : Passes (opt (all [bindings, blanks, word "from", blanks])) (past (some 't') g)
      clause []) (hb : b.any Text.isWord = false) :
    Passes importHead b ((Token.word .importWord).text ++ (g ++ clause)) [] := by
  refine passes_all_zero ?_ (passes_all_cons (passes_word rfl)
    (passes_all_zero ?_ (passes_all_cons ?_ (passes_all_one hclause))))
  · rw [List.append_nil]
    exact passes_boundary_before (w := "import") rfl (by decide) hb
  · rw [List.append_nil]
    exact hnext
  · rw [List.append_nil]
    exact hg

theorem passes_boundary_end {c : Char} (hc : Text.isWord c = true) (hg : AnyBlanks g) :
    Passes boundary (some c) [] g := by
  refine passes_boundary ?_
  have hnext : g.head?.any Text.isWord = false := by
    cases g with
    | nil => rfl
    | cons d g => exact isWord_of_isBlank (hg d (List.mem_cons_self ..))
  rw [hnext]
  simp [hc]

theorem leads_effect {g₀ : List Char} (hg₀ : AnyBlanks g₀) (hg : AnyBlanks g) :
    Leads importHead (g₀ ++ ((Token.word .importWord).text ++ g)) := by
  refine ⟨g₀, (Token.word .importWord).text ++ (g ++ []), by simp, hg₀, word_append_ne_nil _ _,
    fun b hb => passes_importHead ?_ ?_ passes_opt_nil hb⟩
  · rw [List.append_nil]
    exact passes_boundary_end (by decide) hg
  · exact passes_blanks_end hg

theorem leads_import {g₀ g₁ : List Char} {t : Token} {ds : List Char} (clause : List Char)
    (hg₀ : AnyBlanks g₀) (hg₁ : AnyBlanks g₁) (hapart : t.isWord = true → g₁ ≠ [])
    (hds : clause ++ ((Token.word .fromWord).text ++ g) = t.text ++ ds)
    (hclause : ∀ b, Passes (all [bindings, blanks]) b clause ((Token.word .fromWord).text ++ g))
    (hg : AnyBlanks g) :
    Leads importHead (g₀ ++ ((Token.word .importWord).text ++
      (g₁ ++ (clause ++ ((Token.word .fromWord).text ++ g))))) := by
  refine ⟨g₀, _, rfl, hg₀, word_append_ne_nil _ _, fun b hb => ?_⟩
  refine passes_importHead ?_ ?_ (passes_clause (hclause _) hg) hb
  · rw [hds]
    exact passes_boundary_after rfl (by decide) hg₁ hapart
  · rw [hds]
    exact passes_blanks hg₁

/-! ### Exports -/

def exported : Pattern :=
  alt (all [word "*", blanks, opt (all [word "as", blanks1, name, blanks])])
    (all [opt (all [word "type", blanks]), braced, blanks])

theorem passes_alias (id : Name) {g₁ g₂ : List Char} {t : Token} (hg₁ : AnyBlanks g₁)
    (hapart : g₁ ≠ []) (hg₂ : AnyBlanks g₂) :
    Passes (all [word "as", blanks1, name, blanks]) b
      ((Token.word .asWord).text ++ (g₁ ++ (id.1 ++ g₂))) (t.text ++ rest) := by
  refine passes_all_cons (passes_word rfl) (passes_all_cons ?_
    (passes_all_cons (passes_name id) (passes_all_one (passes_blanks hg₂))))
  rw [List.append_assoc]
  exact passes_many1 hapart hg₁ fun _ hc => (head?_of_token (t := .word id) hc).1

theorem passes_everything {t : Token} (hg : AnyBlanks g) :
    Passes exported b ((Token.mark .star).text ++ g) (t.text ++ rest) :=
  .alt_left (passes_all_cons (passes_word rfl)
    ((passes_blanks hg).seq_nil (passes_all_one passes_opt_nil)))

theorem passes_everything_as (id : Name) {g₁ g₂ : List Char} {t : Token} (hg : AnyBlanks g)
    (hg₁ : AnyBlanks g₁) (hapart : g₁ ≠ []) (hg₂ : AnyBlanks g₂) :
    Passes exported b ((Token.mark .star).text ++
      (g ++ ((Token.word .asWord).text ++ (g₁ ++ (id.1 ++ g₂))))) (t.text ++ rest) := by
  refine .alt_left (passes_all_cons (passes_word rfl) (passes_all_cons ?_
    (passes_all_one (passes_alias id hg₁ hapart hg₂).opt)))
  rw [List.append_assoc]
  exact passes_blanks hg

theorem passes_listed {list : List Char} {t : Token}
    (hlist : ∀ b rest, Passes braced b list rest) (hg : AnyBlanks g) :
    Passes exported b (list ++ g) (t.text ++ rest) :=
  .alt_right (passes_all_zero passes_opt_nil
    (passes_all_cons (hlist _ _) (passes_all_one (passes_blanks hg))))

theorem leads_export {g₀ g₁ : List Char} {m : Mark} {ds : List Char} (clause : List Char)
    (hg₀ : AnyBlanks g₀) (hg₁ : AnyBlanks g₁) (hds : clause = (Token.mark m).text ++ ds)
    (hclause : ∀ b, Passes exported b clause ((Token.word .fromWord).text ++ g))
    (hg : AnyBlanks g) :
    Leads exportHead (g₀ ++ ((Token.word .exportWord).text ++
      (g₁ ++ (clause ++ ((Token.word .fromWord).text ++ g))))) := by
  refine ⟨g₀, _, rfl, hg₀, word_append_ne_nil _ _, fun b hb => ?_⟩
  refine passes_all_zero ?_ (passes_all_cons (passes_word rfl) (passes_all_cons ?_
    (passes_all_cons ?_ (passes_from hg))))
  · rw [List.append_nil]
    exact passes_boundary_before (w := "export") rfl (by decide) hb
  · rw [hds, List.append_assoc, List.append_assoc]
    exact passes_blanks hg₁
  · rw [List.append_nil]
    exact hclause _

/-! ### Calls -/

theorem leads_call {g₀ g₁ : List Char} (hg₀ : AnyBlanks g₀) (hg₁ : AnyBlanks g₁)
    (hg : AnyBlanks g) :
    Leads Form.callHead (g₀ ++ ((Token.word .importWord).text ++
      (g₁ ++ ((Token.mark .parenOpen).text ++ g)))) := by
  refine ⟨g₀, _, rfl, hg₀, word_append_ne_nil _ _, fun b hb => ?_⟩
  refine passes_all_zero ?_ (passes_all_cons (passes_word rfl) (passes_all_cons ?_
    (passes_all_cons (passes_word rfl) (passes_all_one (passes_blanks_end hg)))))
  · rw [List.append_nil]
    exact passes_boundary_before (w := "import") rfl (by decide) hb
  · rw [List.append_nil]
    exact passes_blanks hg₁

/-! ### All forms -/

/-- Before its specifier a statement has what the pattern of its kind looks for. -/
theorem Form.leads (f : Form) (h : Spread AnyBlanks false f.head cs) (hg : AnyBlanks g) :
    Leads f.pattern (cs ++ g) := by
  cases f with
  | effect =>
      obtain ⟨g₀, cs, rfl, hg₀, -, h⟩ := Spread.cons_iff.mp h
      obtain rfl := Spread.nil_iff.mp h
      have hleads := leads_effect hg₀ hg
      simpa [Form.pattern] using hleads
  | default id =>
      obtain ⟨g₀, cs, rfl, hg₀, -, h⟩ := Spread.cons_iff.mp h
      obtain ⟨g₁, cs, rfl, hg₁, hapart, h⟩ := Spread.cons_iff.mp h
      obtain ⟨g₂, cs, rfl, hg₂, -, h⟩ := Spread.cons_iff.mp h
      obtain rfl := Spread.nil_iff.mp h
      have hleads := leads_import (t := .word id) (id.1 ++ g₂) hg₀ hg₁ (hapart rfl)
        (by rw [List.append_assoc]; rfl) (fun b => passes_default id hg₂) hg
      simpa [Token.text, Form.pattern] using hleads
  | names ns =>
      obtain ⟨g₀, cs, rfl, hg₀, -, h⟩ := Spread.cons_iff.mp h
      obtain ⟨g₁, names, cs, ends, rfl, hg₁, h, ⟨m, ds, hm⟩, hnames⟩ := Names.passes h
      obtain ⟨g₂, cs, rfl, hg₂, -, h⟩ := Spread.cons_iff.mp h
      obtain rfl := Spread.nil_iff.mp h
      have hleads := leads_import (t := .mark m) (names ++ g₂) hg₀ hg₁ (fun h => by cases h)
        (by rw [hm, List.append_assoc, List.append_assoc]) (fun b => passes_names hnames hg₂) hg
      simpa [Form.pattern] using hleads
  | both id ns =>
      obtain ⟨g₀, cs, rfl, hg₀, -, h⟩ := Spread.cons_iff.mp h
      obtain ⟨g₁, cs, rfl, hg₁, hapart, h⟩ := Spread.cons_iff.mp h
      obtain ⟨g₂, cs, rfl, hg₂, -, h⟩ := Spread.cons_iff.mp h
      obtain ⟨g₃, names, cs, ends, rfl, hg₃, h, ⟨m, ds, hm⟩, hnames⟩ := Names.passes h
      obtain ⟨g₄, cs, rfl, hg₄, -, h⟩ := Spread.cons_iff.mp h
      obtain rfl := Spread.nil_iff.mp h
      have hleads := leads_import (t := .word id)
        ((id.1 ++ (g₂ ++ ((Token.mark .comma).text ++ g₃))) ++ names ++ g₄) hg₀ hg₁
        (hapart rfl) (by rw [List.append_assoc, List.append_assoc, List.append_assoc]; rfl)
        (fun b => passes_both id hg₂ hg₃ hm hnames hg₄) hg
      simpa [Token.text, Form.pattern] using hleads
  | exportAll alias? =>
      obtain ⟨g₀, cs, rfl, hg₀, -, h⟩ := Spread.cons_iff.mp h
      obtain ⟨g₁, cs, rfl, hg₁, -, h⟩ := Spread.cons_iff.mp h
      cases alias? with
      | none =>
          obtain ⟨g₂, cs, rfl, hg₂, -, h⟩ := Spread.cons_iff.mp h
          obtain rfl := Spread.nil_iff.mp h
          have hleads := leads_export (m := .star) ((Token.mark .star).text ++ g₂) hg₀ hg₁ rfl
            (fun b => passes_everything hg₂) hg
          simpa [Form.pattern] using hleads
      | some id =>
          obtain ⟨g₂, cs, rfl, hg₂, -, h⟩ := Spread.cons_iff.mp h
          obtain ⟨g₃, cs, rfl, hg₃, hapart, h⟩ := Spread.cons_iff.mp h
          obtain ⟨g₄, cs, rfl, hg₄, -, h⟩ := Spread.cons_iff.mp h
          obtain rfl := Spread.nil_iff.mp h
          have hleads := leads_export (m := .star) ((Token.mark .star).text ++
              (g₂ ++ ((Token.word .asWord).text ++ (g₃ ++ (id.1 ++ g₄))))) hg₀ hg₁ rfl
            (fun b => passes_everything_as id hg₂ hg₃ (hapart rfl rfl) hg₄) hg
          simpa [Token.text, Form.pattern] using hleads
  | exportList items =>
      obtain ⟨g₀, cs, rfl, hg₀, -, h⟩ := Spread.cons_iff.mp h
      obtain ⟨g₁, list, cs, rfl, hg₁, h, ⟨ds, hds⟩, hlist⟩ := passes_list h
      obtain ⟨g₂, cs, rfl, hg₂, -, h⟩ := Spread.cons_iff.mp h
      obtain rfl := Spread.nil_iff.mp h
      have hleads := leads_export (m := .braceOpen) (list ++ g₂) hg₀ hg₁
        (by rw [hds, List.append_assoc]) (fun b => passes_listed hlist hg₂) hg
      simpa [Form.pattern] using hleads
  | call =>
      obtain ⟨g₀, cs, rfl, hg₀, -, h⟩ := Spread.cons_iff.mp h
      obtain ⟨g₁, cs, rfl, hg₁, -, h⟩ := Spread.cons_iff.mp h
      obtain rfl := Spread.nil_iff.mp h
      have hleads := leads_call hg₀ hg₁ hg
      simpa [Form.pattern] using hleads

end Leads

end ScriptSandbox.Scan
