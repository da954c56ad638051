import ScriptSandbox.Proofs.Scan.Declarations

/-!
# What the decision looks for

The two searches that decide whether a source is a module, read back as cuts of the text: a match of
`moduleOnly` is a declaration at the begin of a line or a mention of `import.meta`
(`moduleOnly_cases`), and a match of `awaitStatement` is a `Lead` from the begin of a line up to the
word `await` (`mem_awaitStatement`).
-/

namespace ScriptSandbox.Scan

open Pattern

/-! ## Runs -/

theorem run_split (p : Char → Bool) (s : Spot) :
    ∃ piece, s.rest = piece ++ (run p s).rest ∧ (∀ c ∈ piece, p c = true) ∧
      (run p s).before = past s.before piece ∧ ∀ c ∈ (run p s).rest.head?, p c = false := by
  obtain ⟨b, cs⟩ := s
  rw [run]
  induction cs generalizing b with
  | nil => exact ⟨[], rfl, by simp, rfl, by simp [run.go]⟩
  | cons c cs ih =>
      by_cases hc : p c = true
      · obtain ⟨piece, hrest, hpiece, hbefore, hnext⟩ := ih (some c)
        simp only at hrest hbefore hnext
        simp only [run.go, hc, if_true]
        exact ⟨c :: piece, by rw [List.cons_append, ← hrest], by simpa [hc] using hpiece, hbefore,
          hnext⟩
      · simp only [run.go, hc]
        exact ⟨[], rfl, by simp, rfl, by simpa using hc⟩

/-- What holds no `c` lies before the `c` of another cut. -/
theorem exists_of_append_eq_append_cons {xs ys zs ws : List Char} {c : Char}
    (h : xs ++ ys = zs ++ c :: ws) (hc : c ∉ xs) : ∃ zs', zs = xs ++ zs' ∧ ys = zs' ++ c :: ws := by
  rcases List.append_eq_append_iff.mp h with ⟨zs', hzs, hys⟩ | ⟨xs', hxs, hws⟩
  · exact ⟨zs', hzs, hys⟩
  · cases xs' with
    | nil => exact ⟨[], by simpa using hxs.symm, by simpa using hws.symm⟩
    | cons d xs' =>
        rw [hxs, (List.cons.inj hws).1] at hc
        simp at hc

theorem mem_lineStart {s s' : Spot} :
    s' ∈ lineStart s ↔ s' = s ∧ ∀ c, s.before = some c → c = '\n' := by
  obtain ⟨b, cs⟩ := s
  cases b with
  | none => simp [lineStart]
  | some d =>
      by_cases hd : d = '\n'
      · simp [lineStart, hd]
      · simp [lineStart, hd]

theorem boundary_of_word {s : Spot} {w : String} {more : List Char} (h : atBoundary s = true)
    (hrest : s.rest = w.toList ++ more) (hw : w.toList.head?.any Text.isWord = true) :
    s.before.any Text.isWord = false := by
  obtain ⟨c, cs, hcs⟩ : ∃ c cs, w.toList = c :: cs := by
    cases hlist : w.toList with
    | nil => rw [hlist] at hw; cases hw
    | cons c cs => exact ⟨c, cs, rfl⟩
  rw [atBoundary, hrest, hcs] at h
  rw [hcs] at hw
  simp only [List.head?_cons, Option.any_some] at hw
  simpa [hw] using h

theorem boundary_behind_word {b : Option Char} {w : String} {more : List Char}
    (h : atBoundary ⟨past b w.toList, more⟩ = true)
    (hw : (past none w.toList).any Text.isWord = true) : more.head?.any Text.isWord = false := by
  have hpast : past b w.toList = past none w.toList := by
    cases hlist : w.toList with
    | nil => rw [hlist] at hw; cases hw
    | cons c cs => rfl
  rw [atBoundary, hpast, hw] at h
  simpa using h

/-- A search for a match goes on behind a text in which none begins. -/
theorem matchesSomewhere_through {p : Pattern} {piece rest : List Char} {b : Option Char}
    (h : ∀ front tail, piece = front ++ tail → tail ≠ [] → p ⟨past b front, tail ++ rest⟩ = []) :
    matchesSomewhere p b (piece ++ rest) = matchesSomewhere p (past b piece) rest := by
  induction piece generalizing b with
  | nil => rfl
  | cons c cs ih =>
      have hhere := h [] (c :: cs) rfl (List.cons_ne_nil c cs)
      rw [past_nil, List.cons_append] at hhere
      rw [List.cons_append, matchesSomewhere, hhere, past_cons]
      refine ih fun front tail heq hne => ?_
      exact h (c :: front) tail (by rw [heq, List.cons_append]) hne

/-! ## Syntax of modules only -/

/-- A mention of `import.meta`, by what stands before it and what begins there. -/
def MetaAt (b : Option Char) (cs : List Char) : Prop :=
  b.any Text.isWord = false ∧ ∃ gap gap' more,
    cs = "import".toList ++ (gap ++ '.' :: (gap' ++ ("meta".toList ++ more))) ∧
      AnyBlanks gap ∧ AnyBlanks gap' ∧ more.head?.any Text.isWord = false

/-- A declaration, from its word on. -/
def DeclaredAt (cs : List Char) : Prop :=
  (∃ gap c more, cs = "import".toList ++ (gap ++ c :: more) ∧ AnyBlanks gap ∧
      afterImport c = true ∧ (gap ++ c :: more).head?.any Text.isWord = false) ∨
    ∃ more, cs = "export".toList ++ more ∧ more.head?.any Text.isWord = false

theorem mem_blanks_split {s s' : Spot} (h : s' ∈ blanks s) :
    ∃ gap, s.rest = gap ++ s'.rest ∧ AnyBlanks gap ∧ s'.before = past s.before gap := by
  obtain ⟨gap, hrest, hgap, hbefore, -⟩ := run_split Text.isBlank s
  obtain rfl := eq_run_of_mem_blanks h
  exact ⟨gap, hrest, hgap, hbefore⟩

theorem mem_indent_split {s s' : Spot} (h : s' ∈ indent s) :
    ∃ ind, s.rest = ind ++ s'.rest ∧ (∀ c ∈ ind, inIndent c = true) ∧
      s'.before = past s.before ind := by
  obtain ⟨ind, hrest, hind, hbefore, -⟩ := run_split (fun c => c == ' ' || c == '\t') s
  obtain rfl : s' = run (fun c => c == ' ' || c == '\t') s := List.mem_singleton.mp h
  exact ⟨ind, hrest, hind, hbefore⟩

theorem metaAt_of_mem {s s' : Spot} (h : s' ∈ all
    [boundary, word "import", blanks, word ".", blanks, word "meta", boundary] s) :
    MetaAt s.before s.rest := by
  obtain ⟨hbound, rest, hrest, h⟩ := mem_head h
  obtain ⟨s₁, hs₁, h⟩ := mem_all_cons.mp h
  obtain ⟨s₂, hs₂, h⟩ := mem_all_cons.mp h
  obtain ⟨s₃, hs₃, h⟩ := mem_all_cons.mp h
  obtain ⟨s₄, hs₄, h⟩ := mem_all_cons.mp h
  obtain ⟨s₅, hs₅, -⟩ := mem_all_cons.mp h
  obtain ⟨gap, hgap, hblank, -⟩ := mem_blanks_split hs₁
  obtain ⟨gap', hgap', hblank', -⟩ := mem_blanks_split hs₃
  obtain ⟨hend, -⟩ := mem_boundary.mp hs₅
  obtain ⟨hmeta, hbefore⟩ := eq_of_mem_word hs₄
  refine ⟨boundary_of_word hbound hrest (by decide), gap, gap', s₄.rest, ?_, hblank, hblank', ?_⟩
  · simp only at hgap
    rw [hrest, hgap, (eq_of_mem_word hs₂).1, hgap', hmeta]
    rfl
  · refine boundary_behind_word (b := s₃.before) (w := "meta") ?_ (by decide)
    rw [← hbefore]
    exact hend

theorem declaredAt_of_mem {s s' : Spot} (h : s' ∈ declaration s) : DeclaredAt s.rest := by
  rcases mem_alt.mp h with h | h
  · obtain ⟨s₁, hs₁, h⟩ := mem_all_cons.mp h
    obtain ⟨s₂, hs₂, h⟩ := mem_all_cons.mp h
    obtain ⟨s₃, hs₃, h⟩ := mem_all_cons.mp h
    obtain ⟨s₄, hs₄, -⟩ := mem_all_cons.mp h
    obtain ⟨hrest, hbefore⟩ := eq_of_mem_word hs₁
    obtain ⟨hend, rfl⟩ := mem_boundary.mp hs₂
    obtain ⟨gap, hgap, hblank, -⟩ := mem_blanks_split hs₃
    obtain ⟨c, more, hmore, hc, -⟩ := mem_one.mp hs₄
    rw [hmore] at hgap
    refine Or.inl ⟨gap, c, more, by rw [hrest, hgap], hblank, hc, ?_⟩
    rw [← hgap]
    refine boundary_behind_word (b := s.before) (w := "import") ?_ (by decide)
    rw [← hbefore]
    exact hend
  · obtain ⟨s₁, hs₁, h⟩ := mem_all_cons.mp h
    obtain ⟨s₂, hs₂, -⟩ := mem_all_cons.mp h
    obtain ⟨hrest, hbefore⟩ := eq_of_mem_word hs₁
    obtain ⟨hend, -⟩ := mem_boundary.mp hs₂
    refine Or.inr ⟨s₁.rest, hrest, boundary_behind_word (b := s.before) (w := "export") ?_
      (by decide)⟩
    rw [← hbefore]
    exact hend

/-- A match is a declaration first in its line, or a mention of `import.meta`. -/
theorem moduleOnly_cases {s s' : Spot} (h : s' ∈ moduleOnly s) :
    ((∀ c, s.before = some c → c = '\n') ∧
        ∃ ind rest, s.rest = ind ++ rest ∧ (∀ c ∈ ind, inIndent c = true) ∧ DeclaredAt rest) ∨
      MetaAt s.before s.rest := by
  rcases mem_alt.mp h with h | h
  · obtain ⟨s₁, hs₁, h⟩ := mem_all_cons.mp h
    obtain ⟨s₂, hs₂, h⟩ := mem_all_cons.mp h
    obtain ⟨s₃, hs₃, -⟩ := mem_all_cons.mp h
    obtain ⟨rfl, hstart⟩ := mem_lineStart.mp hs₁
    obtain ⟨ind, hrest, hind, -⟩ := mem_indent_split hs₂
    exact Or.inl ⟨hstart, ind, s₂.rest, hrest, hind, declaredAt_of_mem hs₃⟩
  · exact Or.inr (metaAt_of_mem h)

theorem moduleOnly_head? {s s' : Spot} (h : s' ∈ moduleOnly s) :
    ∀ c ∈ s.rest.head?, inIndent c = true ∨ Text.isWord c = true := by
  have hword {d : Char} {ds : List Char} (hd : Text.isWord d = true) :
      ∀ c ∈ (d :: ds).head?, inIndent c = true ∨ Text.isWord c = true := by
    intro c hc
    rw [← Option.some.inj hc]
    exact .inr hd
  rcases moduleOnly_cases h with ⟨-, ind, rest, hrest, hind, hdeclared⟩ | hmeta
  · rw [hrest]
    cases ind with
    | nil =>
        rcases hdeclared with ⟨gap, c, more, rfl, -⟩ | ⟨more, rfl, -⟩
        · exact hword (by decide)
        · exact hword (by decide)
    | cons d ds =>
        intro c hc
        rw [← Option.some.inj hc]
        exact .inl (hind d (List.mem_cons_self ..))
  · obtain ⟨-, gap, gap', more, hrest, -⟩ := hmeta
    rw [hrest]
    exact hword (by decide)

/-- A mention goes on to the end of its word, and no quote is in it. -/
theorem MetaAt.within {b : Option Char} {κ : Char} {cs rest : List Char}
    (h : MetaAt b (cs ++ κ :: rest)) (hκ : isQuote κ = true) : MetaAt b cs := by
  obtain ⟨hb, gap, gap', more, htext, hgap, hgap', hmore⟩ := h
  have hnone {g : List Char} (hg : AnyBlanks g) : κ ∉ g := by
    intro hmem
    rw [isQuote_of_isBlank (hg κ hmem)] at hκ
    cases hκ
  have hne {c : Char} (hc : isQuote c = false) : κ ≠ c := by
    rintro rfl
    rw [hc] at hκ
    cases hκ
  have hfree : κ ∉ "import".toList ++ (gap ++ '.' :: (gap' ++ "meta".toList)) := by
    simp [hnone hgap, hnone hgap', hne (c := 'i') (by decide), hne (c := 'm') (by decide),
      hne (c := 'p') (by decide), hne (c := 'o') (by decide), hne (c := 'r') (by decide),
      hne (c := 't') (by decide), hne (c := '.') (by decide), hne (c := 'e') (by decide),
      hne (c := 'a') (by decide)]
  obtain ⟨zs, rfl, rfl⟩ : ∃ zs, cs = "import".toList ++ (gap ++ '.' :: (gap' ++ "meta".toList)) ++ zs ∧
      more = zs ++ κ :: rest := by
    refine exists_of_append_eq_append_cons ?_ hfree
    rw [htext]
    simp
  refine ⟨hb, gap, gap', zs, by simp, hgap, hgap', ?_⟩
  cases zs with
  | nil => rfl
  | cons c zs => exact hmore

/-! ## Statements that await -/

/-- What may stand in a statement before the word `await`: an indent, and perhaps a declaration up
to its equals sign. -/
inductive Lead : List Char → Prop
  | plain {ind : List Char} (hind : ∀ c ∈ ind, inIndent c = true) : Lead ind
  | declaring {ind gap names gap' : List Char} {w : String} (hind : ∀ c ∈ ind, inIndent c = true)
      (hw : w ∈ ["const", "let", "var"]) (hgap : AnyBlanks gap)
      (hnames : ∀ c ∈ names, c ≠ '=' ∧ c ≠ '\n') (hgap' : AnyBlanks gap') :
      Lead (ind ++ (w.toList ++ (gap ++ (names ++ '=' :: gap'))))

theorem Lead.head? {lead : List Char} (h : Lead lead) (more : List Char) :
    ∀ c ∈ (lead ++ ("await".toList ++ more)).head?, inIndent c = true ∨ Text.isWord c = true := by
  have hbegin {ind cs : List Char} (hind : ∀ c ∈ ind, inIndent c = true)
      (hcs : ∀ c ∈ cs.head?, Text.isWord c = true) :
      ∀ c ∈ (ind ++ cs).head?, inIndent c = true ∨ Text.isWord c = true := by
    intro c hc
    cases ind with
    | nil => exact .inr (hcs c hc)
    | cons d ds =>
        obtain rfl := Option.some.inj hc
        exact .inl (hind d (List.mem_cons_self ..))
  cases h with
  | plain hind =>
      refine hbegin hind fun c hc => ?_
      obtain rfl := Option.some.inj hc
      decide
  | declaring hind hw =>
      rw [List.append_assoc, List.append_assoc]
      refine hbegin hind fun c hc => ?_
      simp only [List.mem_cons, List.not_mem_nil, or_false] at hw
      rcases hw with rfl | rfl | rfl <;> obtain rfl := Option.some.inj hc <;> decide

theorem mem_declared {s s' : Spot} (h : s' ∈ declared s) :
    ∃ gap names, s.rest = gap ++ (names ++ '=' :: s'.rest) ∧ AnyBlanks gap ∧
      ∀ c ∈ names, c ≠ '=' ∧ c ≠ '\n' := by
  rw [declared] at h
  split at h
  · obtain ⟨c, cs, hrest, hc, rfl⟩ := mem_one.mp h
    obtain rfl := beq_iff_eq.mp hc
    obtain ⟨gap, hgap, hblank, -⟩ := run_split Text.isBlank s
    obtain ⟨names, hnames, hplain, -⟩ :=
      run_split (fun c => c != '=' && c != '\n') (run Text.isBlank s)
    refine ⟨gap, names, by rw [hgap, hnames, hrest], hblank, fun c hc => ?_⟩
    simpa using hplain c hc
  · cases h

/-- A match begins where a line does and leads up to the word. -/
theorem mem_awaitStatement {s s' : Spot} (h : s' ∈ awaitStatement s) :
    (∀ c, s.before = some c → c = '\n') ∧
      ∃ lead, Lead lead ∧ s.rest = lead ++ ("await".toList ++ s'.rest) ∧
        s'.rest.head?.any Text.isWord = false ∧ s'.before = some 't' := by
  obtain ⟨s₁, hs₁, h⟩ := mem_all_cons.mp h
  obtain ⟨s₂, hs₂, h⟩ := mem_all_cons.mp h
  obtain ⟨s₃, hs₃, h⟩ := mem_all_cons.mp h
  obtain ⟨s₄, hs₄, h⟩ := mem_all_cons.mp h
  obtain ⟨s₅, hs₅, h⟩ := mem_all_cons.mp h
  obtain rfl := mem_all_nil.mp h
  obtain ⟨rfl, hstart⟩ := mem_lineStart.mp hs₁
  obtain ⟨ind, hind, hindent, -⟩ := mem_indent_split hs₂
  obtain ⟨hawait, hbefore⟩ := eq_of_mem_word hs₄
  obtain ⟨hend, rfl⟩ := mem_boundary.mp hs₅
  have hend : s'.rest.head?.any Text.isWord = false := by
    refine boundary_behind_word (b := s₃.before) (w := "await") ?_ (by decide)
    rw [← hbefore]
    exact hend
  have hlast : s'.before = some 't' := hbefore
  refine ⟨hstart, ?_⟩
  rcases mem_opt.mp hs₃ with hdeclaring | rfl
  · obtain ⟨t₁, ht₁, hdeclaring⟩ := mem_all_cons.mp hdeclaring
    obtain ⟨t₂, ht₂, hdeclaring⟩ := mem_all_cons.mp hdeclaring
    obtain ⟨t₃, ht₃, hdeclaring⟩ := mem_all_cons.mp hdeclaring
    obtain rfl := mem_all_nil.mp hdeclaring
    obtain ⟨w, hw, hword⟩ : ∃ w ∈ ["const", "let", "var"], s₂.rest = w.toList ++ t₁.rest := by
      rcases mem_alt.mp ht₁ with hw | hw
      · exact ⟨"const", by decide, (eq_of_mem_word hw).1⟩
      · rcases mem_alt.mp hw with hw | hw
        · exact ⟨"let", by decide, (eq_of_mem_word hw).1⟩
        · exact ⟨"var", by decide, (eq_of_mem_word hw).1⟩
    obtain ⟨gap, names, hdeclared, hgap, hnames⟩ := mem_declared ht₂
    obtain ⟨gap', hgap', hblank, -⟩ := mem_blanks_split ht₃
    refine ⟨_, .declaring hindent hw hgap hnames hblank, ?_, hend, hlast⟩
    rw [hind, hword, hdeclared, hgap', hawait]
    simp
  · exact ⟨ind, .plain hindent, by rw [hind, hawait], hend, hlast⟩

theorem awaitStatement_head? {s s' : Spot} (h : s' ∈ awaitStatement s) :
    ∀ c ∈ s.rest.head?, inIndent c = true ∨ Text.isWord c = true := by
  obtain ⟨-, lead, hlead, hrest, -⟩ := mem_awaitStatement h
  rw [hrest]
  exact hlead.head? s'.rest

/-- What the search for statements that await looks for. -/
def awaiting (s : Spot) : Option (Unit × Spot) := (awaitStatement s).head?.map fun e => ((), e)

theorem awaitPlaces_eq (code : List Char) :
    awaitPlaces code = (findAll awaiting none 0 0 code).map (·.1) := rfl

theorem mem_of_awaiting {s : Spot} {found : Unit × Spot} (h : awaiting s = some found) :
    found.2 ∈ awaitStatement s := by
  obtain ⟨s', hs', rfl⟩ := Option.map_eq_some_iff.mp h
  exact List.mem_of_mem_head? hs'

end ScriptSandbox.Scan
