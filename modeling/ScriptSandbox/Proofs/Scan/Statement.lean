import ScriptSandbox.Proofs.Scan.Forms
import ScriptSandbox.Proofs.Scan.Search

/-!
# The specifier of a statement

A source that consists of one statement has exactly two quotes outside comments, so that whatever a
recogniser finds, it finds what stands between them; and the recogniser of the statement's kind
finds it. So the specifiers of the source are the one of the statement (`scanImports_statement`).
-/

namespace ScriptSandbox.Scan

open Pattern

/-- What the specifiers of a source are found by. -/
def recognisers : List (Spot → Option (List Char × Spot)) :=
  [thenQuoted importHead, dynamicImport?, thenQuoted exportHead]

/-- All that is found in a text, with its offset. -/
def foundIn (b : Option Char) (offset : Nat) (code : List Char) : List (Nat × List Char) :=
  recognisers.flatMap fun find? => findAll find? b offset 0 code

/-- The specifiers among what is found, in the order of their offsets. -/
def specifiers (found : List (Nat × List Char)) : List String :=
  (found.mergeSort fun a b => a.1 ≤ b.1).filterMap fun e => specifierOf e.2

theorem scanImports_eq (source : String) :
    scanImports source =
      firstSeen (specifiers (foundIn none 0 (blankComments source.toList))) := rfl

/-! ## What recognisers find -/

theorem exists_of_thenQuoted {p : Pattern} {s s' : Spot} {text : List Char}
    (h : thenQuoted p s = some (text, s')) : ∃ s₁ ∈ p s, quoted? s₁ = some (text, s') :=
  List.exists_of_findSome?_eq_some h

/-- The end of a call. -/
def closing? (s : Spot) : Option Spot := (all [blanks, word ")"] s).head?

theorem dynamicImport?_eq (s : Spot) :
    dynamicImport? s = (thenQuoted Form.callHead s).bind fun found =>
      (closing? found.2).map fun s' => (found.1, s') := by
  have hhead : all [boundary, word "import", blanks, word "(", blanks] = Form.callHead := rfl
  rw [dynamicImport?, hhead]
  cases thenQuoted Form.callHead s with
  | none => rfl
  | some found =>
      change (closing? found.2).bind (fun s' => some (found.1, s')) = _
      cases hend : closing? found.2 <;> simp [hend]

theorem closing?_eq {g : List Char} (hg : AnyBlanks g) (b : Option Char) (rest : List Char) :
    closing? ⟨b, g ++ ')' :: rest⟩ = some ⟨some ')', rest⟩ := by
  have hrun : run.go Text.isBlank b (g ++ ')' :: rest) = ⟨past b g, ')' :: rest⟩ :=
    run_go_append hg fun c hc => by obtain rfl := Option.some.inj hc; rfl
  have hword (b : Option Char) : all [word ")"] ⟨b, ')' :: rest⟩ = [⟨some ')', rest⟩] := rfl
  change (all [word ")"] (run.go Text.isBlank b (g ++ ')' :: rest)) ++ []).head? = _
  rw [hrun, List.append_nil, hword]
  rfl

/-- Whatever a recogniser finds stands in quotes somewhere behind the place where it looks. -/
theorem exists_quoted?_of_found {find? : Spot → Option (List Char × Spot)}
    (hfind : find? ∈ recognisers) {s s' : Spot} {text : List Char}
    (h : find? s = some (text, s')) :
    ∃ s₁ s₂, s₁.rest <:+ s.rest ∧ quoted? s₁ = some (text, s₂) := by
  have hthen {p : Pattern} (hp : p.Stops) {s₂ : Spot} (h : thenQuoted p s = some (text, s₂)) :
      ∃ s₁ s₂, s₁.rest <:+ s.rest ∧ quoted? s₁ = some (text, s₂) := by
    obtain ⟨s₁, hs₁, hquoted⟩ := exists_of_thenQuoted h
    exact ⟨s₁, s₂, hp.forward s s₁ hs₁, hquoted⟩
  simp only [recognisers, List.mem_cons, List.not_mem_nil, or_false] at hfind
  rcases hfind with rfl | rfl | rfl
  · exact hthen stops_importHead h
  · rw [dynamicImport?_eq] at h
    obtain ⟨found, hfound, hrest⟩ := Option.bind_eq_some_iff.mp h
    obtain ⟨s₂, -, heq⟩ := Option.map_eq_some_iff.mp hrest
    obtain ⟨rfl, -⟩ := Prod.mk.inj heq
    exact hthen stops_callHead hfound
  · exact hthen stops_exportHead h

/-! ## Two quotes -/

/-- Where the first quote of a text stands there is no choice. -/
theorem eq_of_append_quote {front front' back back' : List Char} {κ κ' : Char}
    (hfront : ∀ c ∈ front, isQuote c = false) (hfront' : ∀ c ∈ front', isQuote c = false)
    (hκ : isQuote κ = true) (hκ' : isQuote κ' = true)
    (h : front ++ κ :: back = front' ++ κ' :: back') :
    front = front' ∧ κ = κ' ∧ back = back' :=
  eq_of_append_first (p := fun c => !isQuote c) (fun c hc => by rw [hfront c hc]; rfl)
    (fun c hc => by rw [hfront' c hc]; rfl) (by rw [hκ]; rfl) (by rw [hκ']; rfl) h

/-- If a text has only two quotes, nothing but what stands between them stands in quotes. -/
theorem eq_text_of_quoted? {q : Literal} {front back : List Char}
    (hfront : ∀ c ∈ front, isQuote c = false) (hback : ∀ c ∈ back, isQuote c = false)
    {s s' : Spot} {text : List Char}
    (hs : s.rest <:+ front ++ q.quote :: (q.text ++ q.quote :: back))
    (h : quoted? s = some (text, s')) : text = q.text := by
  obtain ⟨κ, after, hκ, hrest, -⟩ := eq_of_quoted? h
  obtain ⟨before, hs⟩ := hs
  rw [hrest] at hs
  have hcount := congrArg (List.countP isQuote) hs
  have hzero {cs : List Char} (hcs : ∀ c ∈ cs, isQuote c = false) : cs.countP isQuote = 0 :=
    List.countP_eq_zero.mpr fun c hc => by simp [hcs c hc]
  have htext : ∀ c ∈ q.text, isQuote c = false := fun c hc => (q.plain c hc).1
  simp only [List.countP_append, List.countP_cons, hκ, q.isQuote, hzero hfront, hzero hback,
    hzero htext, if_true] at hcount
  have hnone {cs : List Char} (hcs : cs.countP isQuote = 0) : ∀ c ∈ cs, isQuote c = false :=
    fun c hc => Bool.eq_false_iff.mpr (List.countP_eq_zero.mp hcs c hc)
  obtain ⟨-, rfl, hinside⟩ :=
    eq_of_append_quote (hnone (by omega)) hfront hκ q.isQuote hs
  exact (eq_of_append_quote (hnone (by omega)) htext q.isQuote q.isQuote hinside).1

/-! ## A specifier as it is written -/

theorem trim_eq {cs : List Char}
    (h : ∀ c, cs.head? = some c ∨ cs.getLast? = some c → Text.isBlank c = false) :
    Text.trim cs = cs := by
  have hkept {ds : List Char} (hds : ∀ c, ds.head? = some c → Text.isBlank c = false) :
      ds.dropWhile Text.isBlank = ds := by
    cases ds with
    | nil => rfl
    | cons c ds => exact List.dropWhile_cons_of_neg (by simp [hds c rfl])
  rw [Text.trim, Text.trimStart, hkept fun c hc => h c (.inl hc), Text.trimEnd,
    hkept fun c hc => h c (.inr (by rwa [List.head?_reverse] at hc)), List.reverse_reverse]

theorem infix_of_hasSubstitution {cs : List Char} (h : hasSubstitution cs = true) :
    ['$', '\x7b'] <:+: cs := by
  fun_induction hasSubstitution cs with
  | case1 cs => exact (List.prefix_append ['$', '\x7b'] cs).isInfix
  | case2 c cs _ ih => exact (ih h).trans (List.suffix_cons c cs).isInfix
  | case3 => cases h

theorem Literal.specifierOf_text (q : Literal) :
    specifierOf q.text = some (String.ofList q.text) := by
  have hwhole : hasSubstitution q.text = false :=
    Bool.eq_false_iff.mpr fun h => q.whole (infix_of_hasSubstitution h)
  have hne : q.text.isEmpty = false := by simpa using q.ne_nil
  rw [specifierOf, trim_eq q.trimmed, hwhole, hne]
  rfl

theorem firstSeen_of_forall {found : List String} {s : String} (hne : found ≠ [])
    (h : ∀ t ∈ found, t = s) : firstSeen found = [s] := by
  obtain ⟨t, ts, rfl⟩ := List.exists_cons_of_ne_nil hne
  rw [List.forall_mem_cons] at h
  obtain ⟨rfl, hts⟩ := h
  rw [firstSeen, List.foldl_cons]
  have hkept {ts : List String} (hts : ∀ u ∈ ts, u = t) :
      ts.foldl (fun seen s => if seen.contains s then seen else seen ++ [s]) [t] = [t] := by
    induction ts with
    | nil => rfl
    | cons u us ih =>
        rw [List.forall_mem_cons] at hts
        obtain ⟨rfl, hus⟩ := hts
        simpa using ih hus
  simpa using hkept hts

/-! ## Statements -/

def Form.find? : Form → Spot → Option (List Char × Spot)
  | .effect | .default _ | .names _ | .both _ _ => thenQuoted importHead
  | .exportAll _ | .exportList _ => thenQuoted exportHead
  | .call => dynamicImport?

theorem Form.find?_mem (f : Form) : f.find? ∈ recognisers := by
  cases f <;> simp [Form.find?, recognisers]

/-- A statement without comments: what stands before the specifier, and what stands after it. -/
structure Laid (f : Form) (q : Literal) (front back : List Char) : Prop where
  leads : Leads f.pattern front
  enclosed : Enclosed front
  plain : ∀ c ∈ front, isQuote c = false
  parenOpen : f ≠ .call → '(' ∉ front
  tail : Spread AnyBlanks false f.tail back

theorem exists_laid {f : Form} {q : Literal} {out : List Char}
    (h : Spread AnyBlanks false (f.tokens q) out) :
    ∃ front back, out = front ++ q.quote :: (q.text ++ q.quote :: back) ∧ Laid f q front back := by
  obtain ⟨head, back, rfl, hhead, h⟩ := Spread.split h
  obtain ⟨g, back, rfl, hg, -, h⟩ := Spread.cons_iff.mp h
  have hplain : ∀ t ∈ f.head, ∀ c ∈ t.text, isQuote c = false := by
    intro t ht
    cases t with
    | word n => exact fun c hc => isQuote_of_inName (n.2.2 c hc)
    | mark m => exact List.forall_mem_singleton.mpr (by cases m <;> rfl)
    | literal q => exact absurd ht (f.literal_not_mem_head q)
  have hparen (hf : f ≠ .call) : ∀ c ∈ head ++ g, c ≠ '(' := by
    refine List.forall_mem_append.mpr ⟨hhead.forall_mem
      (fun g hg c hc => ne_of_isBlank (hg c hc) (by decide)) fun t ht => ?_,
      fun c hc => ne_of_isBlank (hg c hc) (by decide)⟩
    cases t with
    | word n => exact fun c hc => ne_of_inName (n.2.2 c hc) (by decide)
    | mark m =>
        have hm : m ≠ .parenOpen := fun hm => Form.parenOpen_not_mem_head hf (hm ▸ ht)
        cases m <;> simp_all [Token.text, Mark.char]
    | literal q => exact absurd ht (f.literal_not_mem_head q)
  refine ⟨head ++ g, back, by simp [Token.text], f.leads hhead hg, ?_, ?_,
    fun hf hmem => hparen hf _ hmem rfl, h⟩
  · exact (hhead.enclosed f.closed_head f.literal_not_mem_head).append_plain
      fun hc => absurd (hg _ hc) (by decide)
  · exact List.forall_mem_append.mpr
      ⟨hhead.forall_mem (fun g hg c hc => isQuote_of_isBlank (hg c hc)) hplain,
        fun c hc => isQuote_of_isBlank (hg c hc)⟩

/-- From somewhere before the specifier a pattern finds the specifier or nothing. -/
theorem Laid.thenQuoted_eq {f : Form} {q : Literal} {front back head : List Char}
    (h : Laid f q front back) {p : Pattern} (hp : p.Stops) (hsuffix : head <:+ front)
    (b : Option Char) (rest : List Char) :
    thenQuoted p ⟨b, head ++ q.quote :: (q.text ++ q.quote :: rest)⟩ =
      if (p ⟨b, head⟩).any (·.rest.isEmpty) then some (q.text, ⟨some q.quote, rest⟩) else none := by
  rw [thenQuoted_of_stops hp (h.enclosed.of_suffix hsuffix)
    (fun c hc => h.plain c (hsuffix.subset hc)) q.isQuote, quoted?_eq q.isQuote q.quotable]

/-- Behind the specifier a call is closed. -/
theorem Laid.dynamicImport?_eq {q : Literal} {front back head : List Char}
    (h : Laid .call q front back) (hsuffix : head <:+ front) (b : Option Char)
    (rest : List Char) :
    dynamicImport? ⟨b, head ++ q.quote :: (q.text ++ q.quote :: (back ++ rest))⟩ =
      if (Form.callHead ⟨b, head⟩).any (·.rest.isEmpty) then
        some (q.text, ⟨past (some q.quote) back, rest⟩)
      else none := by
  obtain ⟨g, cs, rfl, hg, -, hnil⟩ := Spread.cons_iff.mp h.tail
  obtain rfl := Spread.nil_iff.mp hnil
  rw [Scan.dynamicImport?_eq, h.thenQuoted_eq stops_callHead hsuffix]
  have hclosing := closing?_eq hg (some q.quote) rest
  split <;> simp [Token.text, Mark.char, hclosing]

/-- Where the pattern of a statement matches what stands before the specifier, the specifier is
found, whatever stands behind the statement. -/
theorem Laid.find?_eq {f : Form} {q : Literal} {front back head : List Char}
    (h : Laid f q front back) (hsuffix : head <:+ front) {b : Option Char}
    (hhead : Passes f.pattern b head []) (rest : List Char) :
    f.find? ⟨b, head ++ q.quote :: (q.text ++ q.quote :: (back ++ rest))⟩ =
      some (q.text, ⟨past (some q.quote) back, rest⟩) := by
  have hreach : (f.pattern ⟨b, head⟩).any (·.rest.isEmpty) = true := by
    rw [Passes, List.append_nil] at hhead
    exact List.any_eq_true.mpr ⟨_, hhead, rfl⟩
  have htail := h.tail
  cases f with
  | call => exact (h.dynamicImport?_eq hsuffix b rest).trans (if_pos hreach)
  | _ =>
      obtain rfl := Spread.nil_iff.mp htail
      exact (h.thenQuoted_eq (Form.stops_pattern _) hsuffix b rest).trans (if_pos hreach)

theorem Laid.plain_back {f : Form} {q : Literal} {front back : List Char}
    (h : Laid f q front back) : ∀ c ∈ back, isQuote c = false := by
  refine h.tail.forall_mem (fun g hg c hc => isQuote_of_isBlank (hg c hc)) fun t ht => ?_
  cases f <;> simp [Form.tail] at ht
  subst ht
  exact List.forall_mem_singleton.mpr rfl

/-- In a text that consists of one statement its specifier is found, and nothing else. -/
theorem Laid.foundIn {f : Form} {q : Literal} {front back more : List Char}
    (h : Laid f q front back) (hmore : ∀ c ∈ more, isQuote c = false) :
    let found := foundIn none 0 (front ++ q.quote :: (q.text ++ q.quote :: (back ++ more)))
    found ≠ [] ∧ ∀ e ∈ found, e.2 = q.text := by
  refine ⟨?_, fun e he => ?_⟩
  · obtain ⟨g, head, rfl, hg, hhead, hpasses⟩ := h.leads
    have hsome := h.find?_eq (List.suffix_append ..)
      (hpasses (past none g) (any_past_blanks rfl hg)) more
    have hne : findAll f.find? none 0 0 (g ++ (head ++ q.quote :: (q.text ++ q.quote ::
        (back ++ more)))) ≠ [] := findAll_ne_nil (by simp [hhead]) (hsome ▸ rfl)
    obtain ⟨e, es, hfind⟩ := List.exists_cons_of_ne_nil hne
    refine List.ne_nil_of_mem (a := e) (List.mem_flatMap.mpr ⟨f.find?, f.find?_mem, ?_⟩)
    rw [List.append_assoc, hfind]
    exact List.mem_cons_self ..
  · have hback : ∀ c ∈ back ++ more, isQuote c = false :=
      List.forall_mem_append.mpr ⟨h.plain_back, hmore⟩
    obtain ⟨find?, hfind, he⟩ := List.mem_flatMap.mp he
    obtain ⟨before, after, s, heq, -, hsome⟩ := mem_findAll he
    obtain ⟨s₁, s₂, hsuffix, hquoted⟩ := exists_quoted?_of_found hfind hsome
    refine eq_text_of_quoted? h.plain hback ?_ hquoted
    rw [heq]
    exact hsuffix.trans (List.suffix_append ..)

theorem firstSeen_specifiers {q : Literal} {found : List (Nat × List Char)} (hne : found ≠ [])
    (h : ∀ e ∈ found, e.2 = q.text) :
    firstSeen (specifiers found) = [String.ofList q.text] := by
  have hspecifier : ∀ e ∈ found, specifierOf e.2 = some (String.ofList q.text) :=
    fun e he => by rw [h e he, q.specifierOf_text]
  refine firstSeen_of_forall ?_ fun s hs => ?_
  · obtain ⟨e, he⟩ := List.exists_mem_of_ne_nil found hne
    exact List.ne_nil_of_mem
      (List.mem_filterMap.mpr ⟨e, List.mem_mergeSort.mpr he, hspecifier e he⟩)
  · obtain ⟨e, he, hs⟩ := List.mem_filterMap.mp hs
    exact Option.some.inj (hs.symm.trans (hspecifier e (List.mem_mergeSort.mp he)))

/-- Every form of statement that names a module is recognised: the specifiers of a source that
consists of one such statement are the one that it names. The names may be any words, also those
that statements are written with, and the gaps may hold any comments. -/
theorem scanImports_statement (f : Form) (q : Literal) {source : String}
    (h : Consists (f.tokens q) source.toList) :
    scanImports source = [String.ofList q.text] := by
  obtain ⟨out, g, hcode, hout, hg⟩ := h.blanked
  obtain ⟨front, back, rfl, hlaid⟩ := exists_laid hout
  have hcode : blankComments source.toList =
      front ++ q.quote :: (q.text ++ q.quote :: (back ++ g)) := by
    rw [hcode]
    simp
  obtain ⟨hne, hfound⟩ := hlaid.foundIn fun c hc => isQuote_of_isBlank (hg c hc)
  rw [scanImports_eq, hcode]
  exact firstSeen_specifiers hne hfound

/-- A name may be the word that stands before the specifier, and comments may hold quotes. -/
theorem scanImports_statement_from :
    let q := Package.literal ⟨'"', "pkg".toList, by decide, by decide,
      List.all_eq_true.mp (by decide)⟩
    Consists ((Form.default .fromWord).tokens q) "import/* ' */from from\t\"pkg\" // '".toList ∧
      scanImports "import/* ' */from from\t\"pkg\" // '" = ["pkg"] := by
  intro q
  have hcomment : AnyGap ('/' :: '*' :: ([' ', '\'', ' '] ++ '*' :: '/' :: [])) :=
    .block (by decide) .nil
  have hspread : Spread AnyGap false ((Form.default .fromWord).tokens q) _ :=
    .cons .nil (by decide) <| .cons hcomment (by decide) <|
      .cons (.blank (c := ' ') (by decide) .nil) (by decide) <|
      .cons (.blank (c := '\t') (by decide) .nil) (by decide) <| .nil _
  have hconsists : Consists ((Form.default .fromWord).tokens q)
      "import/* ' */from from\t\"pkg\" // '".toList :=
    ⟨_, [' '], "// '".toList, by decide, hspread, .blank (by decide) .nil,
      .inr ⟨[' ', '\''], by decide, by decide⟩⟩
  exact ⟨hconsists, scanImports_statement (.default .fromWord) q hconsists⟩

end ScriptSandbox.Scan
