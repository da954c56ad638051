import Mathlib.Data.List.Induction
import Mathlib.Data.List.Perm.Basic
import Mathlib.Data.List.Sort
import ScriptSandbox.Proofs.Scan.Recognisers

/-!
# Scanning a program piece by piece

A `Program` is a sequence of statements that each name a package. What a recogniser finds in such a
statement does not depend on what stands behind it, unless the statement is no import and the name
of its package ends in the word `import`: there an import seems to begin, and its specifier is
looked for behind the quote that closes the name. So what is scanned behind a program whose
statements are clear of that adds its specifiers to those of the program (`scanImports_append`), and
behind one that is not it may be lost (`scanImports_of_import_word`).
-/

namespace ScriptSandbox.Scan

open Pattern

variable {find? : Spot → Option (List Char × Spot)} {b : Option Char} {offset : Nat}

/-! ## Programs -/

/-- A text ends in the word that begins an import. -/
def EndsInImport (text : List Char) : Prop :=
  ∃ pre, text = pre ++ "import".toList ∧ (past none pre).any Text.isWord = false

/-- A statement that names a package, and the semicolons behind it. -/
structure Reference where
  form : Form
  package : Package
  semicolons : Nat := 0

namespace Reference

def tokens (r : Reference) : List Token :=
  r.form.tokens r.package.literal ++ List.replicate r.semicolons (.mark .semicolon)

/-- Nothing in the quotes can be taken for the beginning of another import. -/
def Clear (r : Reference) : Prop := r.form.isImport = true ∨ ¬ EndsInImport r.package.text

end Reference

/-- A source consists of statements, with gaps between their tokens and behind the last. -/
def Program (rs : List Reference) (source : List Char) : Prop :=
  ∃ body g, source = body ++ g ∧ Spread AnyGap false (rs.flatMap Reference.tokens) body ∧ AnyGap g

/-! ## Statements are settled -/

/-- Neither a word nor a statement goes on or begins at a character. -/
def Idle (c : Char) : Prop := Text.isWord c = false ∧ c ≠ 'i' ∧ c ≠ 'e'

theorem idle_of_isBlank {c : Char} (h : Text.isBlank c = true) : Idle c :=
  ⟨isWord_of_isBlank h, ne_of_isBlank h (by decide), ne_of_isBlank h (by decide)⟩

theorem Mark.idle (m : Mark) : Idle m.char := by
  cases m <;> exact ⟨by decide, by decide, by decide⟩

theorem idle_of_isQuote {c : Char} (h : isQuote c = true) : Idle c := by
  refine ⟨isWord_of_isQuote h, ?_, ?_⟩
  · rintro rfl
    cases h
  · rintro rfl
    cases h

theorem idle_of_marks {cs : List Char} {ts : List Token} {afterWord : Bool}
    (h : Spread AnyBlanks afterWord ts cs) (hts : ∀ t ∈ ts, ∃ m, t = .mark m) :
    ∀ c ∈ cs, Idle c := by
  refine h.forall_mem (fun g hg c hc => idle_of_isBlank (hg c hc)) fun t ht => ?_
  obtain ⟨m, rfl⟩ := hts t ht
  exact List.forall_mem_singleton.mpr m.idle

/-- Among the tokens behind a specifier there are only marks. -/
theorem Form.mark_of_mem_tail {f : Form} {t : Token} (ht : t ∈ f.tail) : ∃ m, t = .mark m := by
  cases f with
  | call => exact ⟨_, List.mem_singleton.mp ht⟩
  | _ => cases ht

section Package

variable {p : Package} {pre cs : List Char}

theorem Package.not_mem (htext : p.text = pre ++ cs) {c : Char} (hc : Scan.inPackage c = false) :
    c ∉ cs := fun h => by
  rw [p.inPackage c (htext ▸ List.mem_append_right pre h)] at hc
  cases hc

/-- From within the name of a package a pattern finds nothing if it cannot match the rest of it. -/
theorem thenQuoted_in_package {q : Pattern} (hq : q.Stops) (htext : p.text = pre ++ cs)
    {b : Option Char} (hnone : ¬ (q ⟨b, cs⟩).any (·.rest.isEmpty) = true) (rest : List Char) :
    thenQuoted q ⟨b, cs ++ p.quote :: rest⟩ = none := by
  refine (thenQuoted_of_stops hq (enclosed_of_not_mem (Package.not_mem htext (by decide)))
    (fun c hc => ?_) p.isQuote b rest).trans (if_neg hnone)
  exact (inPackage_plain (p.inPackage c (htext ▸ List.mem_append_right pre hc))).1

theorem static_in_package (hclear : ¬ EndsInImport p.text) (htext : p.text = pre ++ cs)
    (rest : List Char) :
    thenQuoted importHead ⟨past (some p.quote) pre, cs ++ p.quote :: rest⟩ = none := by
  refine thenQuoted_in_package stops_importHead htext (fun h => hclear ?_) rest
  obtain ⟨hword, hbefore⟩ := eq_import_of_importHead
    (fun c hc => p.inPackage c (htext ▸ List.mem_append_right pre hc)) h
  refine ⟨pre, htext.trans (congrArg (pre ++ ·) hword), ?_⟩
  cases pre with
  | nil => rfl
  | cons c pre => exact hbefore

theorem dynamic_in_package (htext : p.text = pre ++ cs) (b : Option Char) (rest : List Char) :
    dynamicImport? ⟨b, cs ++ p.quote :: rest⟩ = none := by
  refine Option.not_isSome_iff_eq_none.mp fun hsome => ?_
  have hcall := isSome_callHead_of_dynamic hsome
  rw [thenQuoted_in_package stops_callHead htext fun h => ?_] at hcall
  · cases hcall
  · obtain ⟨s, hs, -⟩ := List.any_eq_true.mp h
    exact Package.not_mem htext (by decide) (parenOpen_mem_of_callHead hs)

theorem export_in_package (htext : p.text = pre ++ cs) (b : Option Char) (rest : List Char) :
    thenQuoted exportHead ⟨b, cs ++ p.quote :: rest⟩ = none := by
  refine thenQuoted_in_package stops_exportHead htext (fun h => ?_) rest
  obtain ⟨s, hs, -⟩ := List.any_eq_true.mp h
  rcases mark_mem_of_exportHead hs with hstar | hbrace
  · exact Package.not_mem htext (by decide) hstar
  · exact Package.not_mem htext (by decide) hbrace

/-- A name in quotes is settled if nothing is found from within it. -/
theorem settled_quoted {back : List Char} (hfind : find? ∈ recognisers)
    (hback : ∀ b offset, Settled find? b offset back)
    (hnone : ∀ pre cs, p.text = pre ++ cs → ∀ rest,
      find? ⟨past (some p.quote) pre, cs ++ p.quote :: rest⟩ = none) :
    Settled find? b offset (p.quote :: (p.text ++ p.quote :: back)) := by
  have hquote (b : Option Char) (cs : List Char) : find? ⟨b, p.quote :: cs⟩ = none :=
    found_cons hfind b cs (idle_of_isQuote p.isQuote).2
  have hinside (pre cs : List Char) (htext : p.text = pre ++ cs) (offset : Nat) :
      Settled find? (past (some p.quote) pre) offset (cs ++ p.quote :: back) := by
    induction cs generalizing pre offset with
    | nil => exact .miss (fun rest => hquote _ _) (hback _ _)
    | cons c cs ih =>
        refine .miss (fun rest => ?_) ?_
        · have hmiss := hnone pre (c :: cs) htext (back ++ rest)
          simpa using hmiss
        · have hlater := ih (pre ++ [c]) (by simpa using htext) (offset + 1)
          simpa using hlater
  exact .miss (fun rest => hquote _ _) (hinside [] p.text rfl _)

end Package

section Laid

variable {f : Form} {p : Package} {front back : List Char}

theorem quoted_split : p.quote :: (p.text ++ p.quote :: back) =
    (p.quote :: (p.text ++ [p.quote])) ++ back := by simp

theorem Laid.settled_back (h : Laid f p.literal front back) (hfind : find? ∈ recognisers)
    (b : Option Char) (offset : Nat) : Settled find? b offset back :=
  settled_of_forall (fun b _ cs hc => found_cons hfind b cs hc.2)
    (idle_of_marks h.tail fun _ ht => Form.mark_of_mem_tail ht)

/-- The specifier is found from where the pattern can match what stands before it. -/
theorem Laid.settled_of_stops {q : Pattern} (h : Laid f p.literal front back) (hq : q.Stops)
    (hback : ∀ b offset, Settled (thenQuoted q) b offset back)
    (hreach : (∃ pre head, front = pre ++ head ∧ head ≠ [] ∧
        (q ⟨past b pre, head⟩).any (·.rest.isEmpty) = true) ∨
      ∀ offset, Settled (thenQuoted q) (past b front) offset
        (p.quote :: (p.text ++ p.quote :: back))) :
    Settled (thenQuoted q) b offset (front ++ p.quote :: (p.text ++ p.quote :: back)) := by
  rw [quoted_split] at hreach ⊢
  refine settled_lead (a := p.text) (fun b head => (q ⟨b, head⟩).any (·.rest.isEmpty))
    (fun b head rest hhead => ?_) hback hreach
  have hfound := h.thenQuoted_eq hq hhead b (back ++ rest)
  simpa [Package.literal] using hfound

/-- An import is found before its quotes are looked into, and the quotes of another statement are
clear. -/
theorem Laid.settled_static (h : Laid f p.literal front back)
    (hclear : f.isImport = true ∨ ¬ EndsInImport p.text) (hb : b.any Text.isWord = false) :
    Settled (thenQuoted importHead) b offset
      (front ++ p.quote :: (p.text ++ p.quote :: back)) := by
  have hfind : thenQuoted importHead ∈ recognisers := by simp [recognisers]
  refine h.settled_of_stops stops_importHead (h.settled_back hfind) ?_
  rcases hclear with himport | hclear
  · have hpattern : f.pattern = importHead := Form.pattern_of_isImport himport
    obtain ⟨g, head, rfl, hg, hne, hpasses⟩ := h.leads
    have hpasses := hpasses _ (any_past_blanks hb hg)
    rw [hpattern, Passes, List.append_nil] at hpasses
    exact .inl ⟨g, head, rfl, hne, List.any_eq_true.mpr ⟨_, hpasses, rfl⟩⟩
  · exact .inr fun offset => settled_quoted hfind (h.settled_back hfind) fun pre cs htext =>
      static_in_package hclear htext

theorem Laid.settled_export (h : Laid f p.literal front back) :
    Settled (thenQuoted exportHead) b offset
      (front ++ p.quote :: (p.text ++ p.quote :: back)) := by
  have hfind : thenQuoted exportHead ∈ recognisers := by simp [recognisers]
  exact h.settled_of_stops stops_exportHead (h.settled_back hfind) (.inr fun offset =>
    settled_quoted hfind (h.settled_back hfind) fun pre cs htext => export_in_package htext _)

/-- A call is found up to its end; no other form has a parenthesis before its specifier. -/
theorem Laid.settled_dynamic (h : Laid f p.literal front back) :
    Settled dynamicImport? b offset (front ++ p.quote :: (p.text ++ p.quote :: back)) := by
  have hfind : dynamicImport? ∈ recognisers := by simp [recognisers]
  have hquoted : ∀ offset, Settled dynamicImport? (past b front) offset
      (p.quote :: (p.text ++ p.quote :: back)) := fun offset =>
    settled_quoted hfind (h.settled_back hfind) fun pre cs htext => dynamic_in_package htext _
  by_cases hcall : f = .call
  · subst hcall
    rw [← List.append_nil (p.quote :: (p.text ++ p.quote :: back))] at hquoted ⊢
    refine settled_lead (a := p.text)
      (fun b head => (Form.callHead ⟨b, head⟩).any (·.rest.isEmpty))
      (fun b head rest hhead => ?_) (fun _ _ => settled_nil) (.inr hquoted)
    have hfound := h.dynamicImport?_eq hhead b rest
    simpa [Package.literal] using hfound
  · have hback := h.settled_back hfind
    rw [quoted_split] at hquoted ⊢
    refine settled_lead (a := p.text) (fun _ _ => false) (fun b head rest hhead => ?_) hback
      (.inr hquoted)
    refine Option.not_isSome_iff_eq_none.mp fun hsome => ?_
    have hcallHead := isSome_callHead_of_dynamic hsome
    have hfound := h.thenQuoted_eq stops_callHead hhead b (back ++ rest)
    simp only [Package.literal] at hfound
    rw [List.cons_append, List.append_assoc, List.singleton_append, hfound] at hcallHead
    split at hcallHead
    · next hreach =>
        obtain ⟨s, hs, -⟩ := List.any_eq_true.mp hreach
        exact h.parenOpen hcall (hhead.subset (parenOpen_mem_of_callHead hs))
    · cases hcallHead

/-- What is found in a clear statement does not depend on what stands behind it. -/
theorem Laid.settled (h : Laid f p.literal front back) (hfind : find? ∈ recognisers)
    (hclear : f.isImport = true ∨ ¬ EndsInImport p.text) (hb : b.any Text.isWord = false) :
    Settled find? b offset (front ++ p.quote :: (p.text ++ p.quote :: back)) := by
  simp only [recognisers, List.mem_cons, List.not_mem_nil, or_false] at hfind
  rcases hfind with rfl | rfl | rfl
  · exact h.settled_static hclear hb
  · exact h.settled_dynamic
  · exact h.settled_export

end Laid

/-! ## Wholes -/

/-- Code behind which every recogniser begins anew. -/
structure Whole (code : List Char) : Prop where
  settled : ∀ find? ∈ recognisers, ∀ b offset, b.any Text.isWord = false →
    Settled find? b offset code
  ends : ∀ b, b.any Text.isWord = false → (past b code).any Text.isWord = false

theorem Whole.append {code more : List Char} (h : Whole code) (h' : Whole more) :
    Whole (code ++ more) where
  settled find? hfind b offset hb :=
    (h.settled find? hfind b offset hb).append (h'.settled find? hfind _ _ (h.ends b hb))
  ends b hb := by
    rw [past_append]
    exact h'.ends _ (h.ends b hb)

theorem whole_of_idle {code : List Char} (h : ∀ c ∈ code, Idle c) : Whole code where
  settled _ hfind _ _ _ := settled_of_forall (fun b _ cs hc => found_cons hfind b cs hc.2) h
  ends _ hb := any_past hb fun c hc => (h c hc).1

theorem Laid.whole {f : Form} {p : Package} {front back : List Char}
    (h : Laid f p.literal front back) (hclear : f.isImport = true ∨ ¬ EndsInImport p.text) :
    Whole (front ++ p.quote :: (p.text ++ p.quote :: back)) where
  settled _ hfind _ _ hb := h.settled hfind hclear hb
  ends _ _ := by
    simp only [past_append, past_cons]
    exact any_past (isWord_of_isQuote p.isQuote)
      fun c hc => (idle_of_marks h.tail (fun t ht => Form.mark_of_mem_tail ht) c hc).1

/-! ## Putting what is found together -/

/-- At one place one thing is found. -/
theorem foundIn_unique {code : List Char} {e e' : Nat × List Char} (he : e ∈ foundIn b offset code)
    (he' : e' ∈ foundIn b offset code) (h : e.1 = e'.1) : e = e' := by
  obtain ⟨place, text⟩ := e
  obtain ⟨place', text'⟩ := e'
  obtain rfl : place = place' := h
  obtain ⟨f, hf, he⟩ := List.mem_flatMap.mp he
  obtain ⟨g, hg, he'⟩ := List.mem_flatMap.mp he'
  obtain ⟨front, back, s, rfl, rfl, hfound⟩ := mem_findAll he
  obtain ⟨front', back', s', heq, hplace, hfound'⟩ := mem_findAll he'
  obtain ⟨rfl, rfl⟩ := List.append_inj heq (by omega)
  exact Prod.ext rfl (congrArg Prod.fst (found_unique hf hg hfound hfound'))

/-- What is found begins before the end. -/
theorem lt_of_mem_foundIn {code : List Char} {e : Nat × List Char} (he : e ∈ foundIn none 0 code) :
    e.1 < code.length := by
  obtain ⟨find?, hfind, he⟩ := List.mem_flatMap.mp he
  obtain ⟨front, back, s, rfl, hplace, hfound⟩ := mem_findAll he
  cases back with
  | nil =>
      rw [found_nil hfind] at hfound
      cases hfound
  | cons c cs =>
      rw [hplace, List.length_append, List.length_cons]
      omega

theorem pairwise_ordered (found : List (Nat × List Char)) :
    (found.mergeSort fun a b => a.1 ≤ b.1).Pairwise fun e e' => e.1 ≤ e'.1 :=
  (List.pairwise_mergeSort (by simpa using fun _ _ _ => Nat.le_trans)
    (by simpa using Nat.le_total) found).imp (by simp)

/-- What is found in a code is put in order in one way only. -/
theorem specifiers_eq {code : List Char} {sorted : List (Nat × List Char)}
    (hperm : (foundIn none 0 code).Perm sorted)
    (hsorted : sorted.Pairwise fun e e' => e.1 ≤ e'.1) :
    specifiers (foundIn none 0 code) = sorted.filterMap fun e => specifierOf e.2 := by
  have hsame : (foundIn none 0 code).mergeSort (fun a b => a.1 ≤ b.1) = sorted := by
    refine List.Perm.eq_of_pairwise (fun e e' he he' hle hle' => ?_)
      (pairwise_ordered _) hsorted ((List.mergeSort_perm ..).trans hperm)
    exact foundIn_unique (List.mem_mergeSort.mp he) (hperm.mem_iff.mpr he')
      (Nat.le_antisymm hle hle')
  rw [specifiers, hsame]

theorem scanImports_of_perm {source : String} (sorted : List (Nat × List Char))
    (hperm : (foundIn none 0 (blankComments source.toList)).Perm sorted)
    (hsorted : sorted.Pairwise fun e e' => e.1 ≤ e'.1) {found : List String}
    (hfound : firstSeen (sorted.filterMap fun e => specifierOf e.2) = found) :
    scanImports source = found := by
  rw [scanImports_eq, specifiers_eq hperm hsorted, hfound]

/-- Behind a whole a search begins anew. -/
theorem findAll_append {code : List Char} (hcode : Whole code) (hfind : find? ∈ recognisers)
    (later : List Char) :
    findAll find? none 0 0 (code ++ later) =
      findAll find? none 0 0 code ++
        (findAll find? none 0 0 later).map fun e => (code.length + e.1, e.2) := by
  obtain ⟨found, hfound⟩ := hcode.settled find? hfind none 0 rfl
  have hwithin : findAll find? none 0 0 code = found := by
    have hwithin := findAll_of_finds (hfound [])
    rw [List.append_nil] at hwithin
    rw [hwithin]
    simp [findAll, found_nil hfind]
  have hstart (text : List Char) : find? ⟨past none code, text⟩ = find? ⟨none, text⟩ :=
    found_before hfind (hcode.ends none rfl) text
  calc findAll find? none 0 0 (code ++ later)
      = found ++ findAll find? (past none code) (0 + code.length) 0 later :=
        findAll_of_finds (hfound later)
    _ = found ++ findAll find? none (code.length + 0) 0 later := by
        rw [findAll_before hstart, Nat.zero_add, Nat.add_zero]
    _ = _ := by rw [findAll_shift, hwithin]

theorem specifiers_append {code : List Char} (hcode : Whole code) (later : List Char) :
    specifiers (foundIn none 0 (code ++ later)) =
      specifiers (foundIn none 0 code) ++ specifiers (foundIn none 0 later) := by
  have hperm : (foundIn none 0 (code ++ later)).Perm
      ((foundIn none 0 code).mergeSort (fun a b => a.1 ≤ b.1) ++
        ((foundIn none 0 later).mergeSort (fun a b => a.1 ≤ b.1)).map
          fun e => (code.length + e.1, e.2)) := by
    have hwhole : foundIn none 0 (code ++ later) = recognisers.flatMap fun find? =>
        findAll find? none 0 0 code ++
          (findAll find? none 0 0 later).map fun e => (code.length + e.1, e.2) :=
      List.flatMap_congr fun find? hfind => findAll_append hcode hfind later
    rw [hwhole]
    refine (List.flatMap_append_perm ..).symm.trans ?_
    rw [← List.map_flatMap]
    exact .append (List.mergeSort_perm ..).symm ((List.mergeSort_perm ..).symm.map _)
  rw [specifiers_eq hperm, List.filterMap_append, List.filterMap_map]
  · rfl
  · refine List.pairwise_append.mpr ⟨pairwise_ordered _, ?_, fun e he e' he' => ?_⟩
    · exact List.pairwise_map.mpr ((pairwise_ordered _).imp (by simp))
    · obtain ⟨e₂, -, rfl⟩ := List.mem_map.mp he'
      have hlt := lt_of_mem_foundIn (List.mem_mergeSort.mp he)
      simp only
      omega

theorem foundIn_of_idle {code : List Char} (h : ∀ c ∈ code, Idle c) :
    foundIn b offset code = [] := by
  refine List.flatMap_eq_nil_iff.mpr fun find? hfind => ?_
  refine List.eq_nil_iff_forall_not_mem.mpr fun e he => ?_
  obtain ⟨front, back, s, rfl, -, hfound⟩ := mem_findAll he
  cases back with
  | nil =>
      rw [found_nil hfind] at hfound
      cases hfound
  | cons c cs =>
      rw [found_cons hfind _ _ (h c (by simp)).2] at hfound
      cases hfound

@[simp] theorem specifiers_nil : specifiers [] = [] := by
  rw [specifiers, List.mergeSort_nil, List.filterMap_nil]

theorem specifiers_append_idle {code idle : List Char} (hcode : Whole code)
    (hidle : ∀ c ∈ idle, Idle c) :
    specifiers (foundIn none 0 (code ++ idle)) = specifiers (foundIn none 0 code) := by
  rw [specifiers_append hcode, foundIn_of_idle hidle, specifiers_nil, List.append_nil]

theorem firstSeen_concat (us : List String) (u : String) :
    firstSeen (us ++ [u]) =
      if (firstSeen us).contains u then firstSeen us else firstSeen us ++ [u] := by
  rw [firstSeen, List.foldl_append]
  rfl

theorem firstSeen_append (xs ys : List String) :
    firstSeen (xs ++ ys) =
      firstSeen xs ++ (firstSeen ys).filter fun s => !(firstSeen xs).contains s := by
  induction ys using List.reverseRecOn with
  | nil => simp [firstSeen]
  | append_singleton ys y ih =>
      rw [← List.append_assoc, firstSeen_concat, firstSeen_concat, ih]
      generalize firstSeen ys = later
      generalize firstSeen xs = seen
      by_cases hseen : y ∈ seen
      · by_cases hlater : y ∈ later <;> simp [hseen, hlater]
      · by_cases hlater : y ∈ later <;> simp [hseen, hlater]

/-! ## Scanning programs -/

theorem Spread.of_afterWord {gap : List Char → Prop} {afterWord : Bool} {ts : List Token}
    {cs : List Char} (h : Spread gap afterWord ts cs) : Spread gap false ts cs := by
  cases h with
  | nil => exact .nil false
  | cons hg _ h => exact .cons hg (fun h => by cases h) h

def Reference.specifier (r : Reference) : String := String.ofList r.package.text

theorem Reference.specifiers {r : Reference} {out : List Char} (hclear : r.Clear)
    (h : Spread AnyBlanks false r.tokens out) :
    Whole out ∧ firstSeen (Scan.specifiers (foundIn none 0 out)) = [r.specifier] := by
  obtain ⟨statement, ends, rfl, hstatement, hends⟩ := h.split
  obtain ⟨front, back, rfl, hlaid⟩ := exists_laid hstatement
  have hidle : ∀ c ∈ ends, Idle c :=
    idle_of_marks hends fun t ht => ⟨_, (List.mem_replicate.mp ht).2⟩
  have hwhole : Whole (front ++ r.package.literal.quote ::
      (r.package.literal.text ++ r.package.literal.quote :: back)) := hlaid.whole hclear
  refine ⟨hwhole.append (whole_of_idle hidle), ?_⟩
  obtain ⟨hne, hfound⟩ := hlaid.foundIn (List.forall_mem_nil _)
  rw [List.append_nil] at hne hfound
  rw [specifiers_append_idle hwhole hidle]
  exact firstSeen_specifiers hne hfound

theorem specifiers_program {rs : List Reference} {out : List Char} (hclear : ∀ r ∈ rs, r.Clear)
    (h : Spread AnyBlanks false (rs.flatMap Reference.tokens) out) :
    Whole out ∧ firstSeen (specifiers (foundIn none 0 out)) =
      firstSeen (rs.map Reference.specifier) := by
  induction rs generalizing out with
  | nil =>
      obtain rfl := Spread.nil_iff.mp h
      refine ⟨whole_of_idle (List.forall_mem_nil _), ?_⟩
      rw [foundIn_of_idle (List.forall_mem_nil _), specifiers_nil, List.map_nil]
  | cons r rs ih =>
      rw [List.forall_mem_cons] at hclear
      obtain ⟨statement, more, rfl, hstatement, hmore⟩ := Spread.split h
      obtain ⟨hwhole, hfirst⟩ := Reference.specifiers hclear.1 hstatement
      obtain ⟨hlater, hothers⟩ := ih hclear.2 hmore.of_afterWord
      refine ⟨hwhole.append hlater, ?_⟩
      rw [specifiers_append hwhole, firstSeen_append, hfirst, hothers]
      exact (firstSeen_append [r.specifier] (rs.map Reference.specifier)).symm

/-- Scanning composes. A program of clear statements specifies their packages, each once and in the
order of its first place; and what is specified behind it and a separator is added to that, whatever
stands there. -/
theorem scanImports_append {rs : List Reference} {source sep : String}
    (hprogram : Program rs source.toList) (hclear : ∀ r ∈ rs, r.Clear)
    (hsep : sep = ";" ∨ sep = "\n") (later : String) :
    scanImports source = firstSeen (rs.map Reference.specifier) ∧
      scanImports (source ++ sep ++ later) =
        scanImports source ++
          (scanImports later).filter fun s => !(scanImports source).contains s := by
  obtain ⟨body, g, hsource, hbody, hg⟩ := hprogram
  obtain ⟨out, hout, hread⟩ := hbody.blanked
  obtain ⟨blanks, hblanks, -, hgap⟩ := AnyGap.reads hg
  obtain ⟨c, hc, hidle, hplain⟩ : ∃ c, sep.toList = [c] ∧ Idle c ∧ c ≠ '/' ∧ isQuote c = false := by
    rcases hsep with rfl | rfl
    · exact ⟨';', rfl, Mark.semicolon.idle, by decide⟩
    · exact ⟨'\n', rfl, idle_of_isBlank (by decide), by decide⟩
  have hcode : blankComments source.toList = out ++ blanks := by
    have hcode := (hread.append hgap) []
    rwa [List.append_nil, ← hsource, blankFrom, List.append_nil] at hcode
  have hwhole : blankComments (source ++ sep ++ later).toList =
      out ++ (blanks ++ [c]) ++ blankComments later.toList := by
    have hreads := ((hread.append hgap).append
      (reads_plain (List.forall_mem_singleton.mpr hplain))) later.toList
    rw [← hsource, ← hc, ← String.toList_append, ← String.toList_append, hc] at hreads
    rw [blankComments, hreads, blankComments, List.append_assoc out]
  have hblank : ∀ c ∈ blanks, Idle c := fun c hc => idle_of_isBlank (hblanks c hc)
  have hbehind : ∀ d ∈ blanks ++ [c], Idle d :=
    List.forall_mem_append.mpr ⟨hblank, List.forall_mem_singleton.mpr hidle⟩
  obtain ⟨hprogram, hspecifiers⟩ := specifiers_program hclear hout
  constructor
  · rw [scanImports_eq, hcode, specifiers_append_idle hprogram hblank, hspecifiers]
  · rw [scanImports_eq, scanImports_eq source, scanImports_eq later, hwhole, hcode,
      specifiers_append (hprogram.append (whole_of_idle hbehind)),
      specifiers_append_idle hprogram hbehind, specifiers_append_idle hprogram hblank,
      firstSeen_append]

/-- An import is clear whatever it names, and other statements are if their packages do not end in
the word. -/
theorem scanImports_append_of_clear :
    let importing : Reference := ⟨.default .fromWord,
      ⟨'\'', "import".toList, by decide, by decide, List.all_eq_true.mp (by decide)⟩, 1⟩
    let calling : Reference := ⟨.call,
      ⟨'"', "a.b".toList, by decide, by decide, List.all_eq_true.mp (by decide)⟩, 0⟩
    Program [importing, calling] "import from from 'import';\nimport(\"a.b\")".toList ∧
      importing.Clear ∧ calling.Clear ∧
      scanImports "import from from 'import';\nimport(\"a.b\")" = ["import", "a.b"] ∧
      scanImports ("import from from 'import';\nimport(\"a.b\")" ++ ";" ++ "export {y} from 'c'") =
        ["import", "a.b"] ++
          (scanImports "export {y} from 'c'").filter fun s => !(["import", "a.b"].contains s) := by
  intro importing calling
  have hprogram : Program [importing, calling]
      "import from from 'import';\nimport(\"a.b\")".toList := by
    have hspace : AnyGap [' '] := .blank (by decide) .nil
    have hspread : Spread AnyGap false ([importing, calling].flatMap Reference.tokens) _ :=
      .cons .nil (by decide) <| .cons hspace (by decide) <| .cons hspace (by decide) <|
      .cons hspace (by decide) <| .cons .nil (by decide) <|
      .cons (.blank (c := '\n') (by decide) .nil) (by decide) <| .cons .nil (by decide) <|
      .cons .nil (by decide) <| .cons .nil (by decide) <| .nil _
    exact ⟨_, [], by decide, hspread, .nil⟩
  have himporting : importing.Clear := .inl rfl
  have hcalling : calling.Clear := by
    refine .inr fun h => ?_
    obtain ⟨pre, htext, -⟩ := h
    have hlength := congrArg List.length htext
    simp [calling] at hlength
  have hclear : ∀ r ∈ [importing, calling], r.Clear :=
    List.forall_mem_cons.mpr ⟨himporting, List.forall_mem_singleton.mpr hcalling⟩
  obtain ⟨hspecifiers, hmore⟩ := scanImports_append hprogram hclear (.inl rfl) "export {y} from 'c'"
  have hnames : firstSeen ([importing, calling].map Reference.specifier) = ["import", "a.b"] := by
    decide
  rw [hspecifiers, hnames] at hmore
  exact ⟨hprogram, himporting, hcalling, hspecifiers.trans hnames, hmore⟩

/-- A statement that is not clear: the quote that closes the name of its package is taken for one
that opens a specifier, which ends where the quotes of the next statement open; so that statement is
passed over. -/
theorem scanImports_of_import_word :
    let word : Reference := ⟨.exportAll none,
      ⟨'\'', "import".toList, by decide, by decide, List.all_eq_true.mp (by decide)⟩, 0⟩
    let next : Reference := ⟨.default ⟨['x'], by decide, List.all_eq_true.mp (by decide)⟩,
      ⟨'\'', "b".toList, by decide, by decide, List.all_eq_true.mp (by decide)⟩, 0⟩
    Program [word] "export * from 'import'".toList ∧ Program [next] "import x from 'b'".toList ∧
      scanImports "export * from 'import'" = ["import"] ∧ scanImports "import x from 'b'" = ["b"] ∧
      scanImports ("export * from 'import'" ++ ";" ++ "import x from 'b'") =
        ["import", ";import x from"] := by
  intro word next
  have hspace : AnyGap [' '] := .blank (by decide) .nil
  have hword : Spread AnyGap false ([word].flatMap Reference.tokens) _ :=
    .cons .nil (by decide) <| .cons hspace (by decide) <| .cons hspace (by decide) <|
    .cons hspace (by decide) <| .nil _
  have hnext : Spread AnyGap false ([next].flatMap Reference.tokens) _ :=
    .cons .nil (by decide) <| .cons hspace (by decide) <| .cons hspace (by decide) <|
    .cons hspace (by decide) <| .nil _
  refine ⟨⟨_, [], by decide, hword, .nil⟩, ⟨_, [], by decide, hnext, .nil⟩, ?_, ?_, ?_⟩
  · exact scanImports_of_perm [(0, "import".toList)] (by decide +kernel) (by decide) rfl
  · exact scanImports_of_perm [(0, "b".toList)] (by decide +kernel) (by decide) rfl
  · exact scanImports_of_perm [(0, "import".toList), (15, ";import x from ".toList)]
      (by decide +kernel) (by decide) rfl

end ScriptSandbox.Scan
