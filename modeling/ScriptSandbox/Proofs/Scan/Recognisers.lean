import Mathlib.Data.List.Pairwise
import ScriptSandbox.Proofs.Scan.Statement

/-!
# Where recognisers find something

A recogniser begins at the word `import` or `export` and nowhere else, no two of them begin at the
same place, and what stands before that place matters only if a word goes on there. In the name of a
package only one thing can be taken for the head of a statement: the word `import` at its end, as
the quote that closes the name then seems to open another string.
-/

namespace ScriptSandbox.Scan

open Pattern

variable {find? : Spot → Option (List Char × Spot)} {s s' : Spot} {b b' : Option Char} {c : Char}
  {cs : List Char}

/-! ## The first word -/

theorem isSome_callHead_of_dynamic (h : (dynamicImport? s).isSome = true) :
    (thenQuoted Form.callHead s).isSome = true := by
  refine Option.isSome_iff_ne_none.mpr fun hnone => ?_
  rw [dynamicImport?_eq, hnone] at h
  cases h

/-- What a pattern finds, it finds through one of its matches. -/
theorem exists_of_isSome_thenQuoted {p : Pattern} (h : (thenQuoted p s).isSome = true) :
    ∃ s₁ ∈ p s, (quoted? s₁).isSome = true := by
  obtain ⟨found, hfound⟩ := Option.isSome_iff_exists.mp h
  obtain ⟨s₁, hs₁, hquoted⟩ := List.exists_of_findSome?_eq_some hfound
  exact ⟨s₁, hs₁, hquoted ▸ rfl⟩

/-- A head begins at its word. -/
theorem prefix_of_thenQuoted {w : String} {ps : List Pattern}
    (h : (thenQuoted (all (boundary :: word w :: ps)) s).isSome = true) : w.toList <+: s.rest := by
  obtain ⟨s₁, hs₁, -⟩ := exists_of_isSome_thenQuoted h
  obtain ⟨-, rest, hrest, -⟩ := mem_head hs₁
  exact ⟨rest, hrest.symm⟩

/-- A recogniser begins at its word. -/
theorem prefix_of_found (hfind : find? ∈ recognisers) (h : (find? s).isSome = true) :
    "import".toList <+: s.rest ∨ "export".toList <+: s.rest := by
  simp only [recognisers, List.mem_cons, List.not_mem_nil, or_false] at hfind
  rcases hfind with rfl | rfl | rfl
  · exact .inl (prefix_of_thenQuoted h)
  · exact .inl (prefix_of_thenQuoted (isSome_callHead_of_dynamic h))
  · exact .inr (prefix_of_thenQuoted h)

theorem found_nil (hfind : find? ∈ recognisers) (b : Option Char) : find? ⟨b, []⟩ = none := by
  refine Option.not_isSome_iff_eq_none.mp fun h => ?_
  rcases prefix_of_found hfind h with h | h <;> exact absurd (List.prefix_nil.mp h) (by decide)

/-- Nothing begins at another letter. -/
theorem found_cons (hfind : find? ∈ recognisers) (b : Option Char) (cs : List Char)
    (hc : c ≠ 'i' ∧ c ≠ 'e') : find? ⟨b, c :: cs⟩ = none := by
  refine Option.not_isSome_iff_eq_none.mp fun h => ?_
  rcases prefix_of_found hfind h with ⟨rest, hrest⟩ | ⟨rest, hrest⟩
  · exact hc.1 (List.cons.inj hrest).1.symm
  · exact hc.2 (List.cons.inj hrest).1.symm

/-- What stands before matters only as far as a word may go on. -/
theorem found_before (hfind : find? ∈ recognisers) (h : b.any Text.isWord = b'.any Text.isWord)
    (cs : List Char) : find? ⟨b, cs⟩ = find? ⟨b', cs⟩ := by
  have hhead {w : String} (ps : List Pattern) (hw : w ≠ "") :
      thenQuoted (all (boundary :: word w :: ps)) ⟨b, cs⟩ =
        thenQuoted (all (boundary :: word w :: ps)) ⟨b', cs⟩ :=
    congrArg (List.findSome? quoted?) (head_before hw h cs)
  simp only [recognisers, List.mem_cons, List.not_mem_nil, or_false] at hfind
  rcases hfind with rfl | rfl | rfl
  · exact hhead _ (by decide)
  · rw [dynamicImport?_eq, dynamicImport?_eq]
    exact congrArg (Option.bind · _) (hhead [blanks, word "(", blanks] (by decide))
  · exact hhead _ (by decide)

/-! ## One recogniser at a place -/

/-- What is bound begins with a name, a star or a brace. -/
theorem eq_of_mem_bindings (hname : inName c = false) (hstar : c ≠ '*') (hbrace : c ≠ '\x7b')
    (h : s' ∈ bindings ⟨b, c :: cs⟩) : s' = ⟨b, c :: cs⟩ := by
  obtain ⟨s₁, hs₁, h⟩ := mem_seq.mp h
  have hs₁ : s₁ = ⟨b, c :: cs⟩ := by
    refine (mem_opt.mp hs₁).resolve_left fun hdefault => ?_
    obtain ⟨s₂, hs₂, -⟩ := mem_all_cons.mp hdefault
    simp [name, some1, some1.go, hname] at hs₂
  subst hs₁
  refine (mem_opt.mp h).resolve_left fun hnames => ?_
  rcases mem_alt.mp hnames with hall | hlist
  · obtain ⟨s₂, hs₂, -⟩ := mem_all_cons.mp hall
    exact hstar (List.cons.inj (eq_of_mem_word hs₂).1).1
  · obtain ⟨s₂, hs₂, -⟩ := mem_all_cons.mp hlist
    obtain ⟨d, ds, hrest, hd, -⟩ := mem_one.mp hs₂
    exact hbrace ((List.cons.inj hrest).1.trans (beq_iff_eq.mp hd))

/-- Nor is there the word that stands behind what is bound. -/
theorem not_mem_clause (hname : inName c = false) (hblank : Text.isBlank c = false)
    (hstar : c ≠ '*') (hbrace : c ≠ '\x7b') (b : Option Char) (cs : List Char) :
    s' ∉ all [bindings, blanks, word "from", blanks] ⟨b, c :: cs⟩ := by
  intro h
  obtain ⟨s₁, hs₁, h⟩ := mem_all_cons.mp h
  obtain rfl := eq_of_mem_bindings hname hstar hbrace hs₁
  obtain ⟨s₂, hs₂, h⟩ := mem_all_cons.mp h
  have hs₂ : s₂ = ⟨b, c :: cs⟩ := by
    refine (eq_run_of_mem_blanks hs₂).trans ?_
    simp [run, run.go, hblank]
  subst hs₂
  obtain ⟨s₃, hs₃, -⟩ := mem_all_cons.mp h
  obtain rfl := (List.cons.inj (eq_of_mem_word hs₃).1).1
  cases hname

/-- Where a call begins no import statement does. -/
theorem static_of_dynamic (h : (dynamicImport? s).isSome = true) :
    thenQuoted importHead s = none := by
  obtain ⟨s₁, hs₁, -⟩ := exists_of_isSome_thenQuoted (isSome_callHead_of_dynamic h)
  obtain ⟨-, rest, hrest, hs₁⟩ := mem_head hs₁
  obtain ⟨s₂, hs₂, hs₁⟩ := mem_all_cons.mp hs₁
  obtain ⟨s₃, hs₃, -⟩ := mem_all_cons.mp hs₁
  have hparen := (eq_of_mem_word hs₃).1
  refine Option.not_isSome_iff_eq_none.mp fun hstatic => ?_
  obtain ⟨t₁, ht₁, hquoted⟩ := exists_of_isSome_thenQuoted hstatic
  obtain ⟨-, rest', hrest', ht₁⟩ := mem_head ht₁
  obtain rfl := List.append_cancel_left (hrest.symm.trans hrest')
  obtain ⟨t₂, ht₂, ht₁⟩ := mem_all_cons.mp ht₁
  obtain ⟨-, rfl⟩ := mem_boundary.mp ht₂
  obtain ⟨t₃, ht₃, ht₁⟩ := mem_all_cons.mp ht₁
  -- Both stand at the parenthesis.
  obtain rfl := (eq_run_of_mem_blanks ht₃).trans (eq_run_of_mem_blanks hs₂).symm
  obtain ⟨b, cs⟩ := t₃
  simp only at hparen
  subst hparen
  obtain ⟨t₄, ht₄, ht₁⟩ := mem_all_cons.mp ht₁
  obtain rfl := mem_all_nil.mp ht₁
  rcases mem_opt.mp ht₄ with hclause | rfl
  · exact not_mem_clause (by decide) (by decide) (by decide) (by decide) b _ hclause
  · cases hquoted

/-- No two recognisers find something at the same place. -/
theorem recognisers_exclusive :
    recognisers.Pairwise fun f g => ∀ s, (f s).isSome = true → g s = none := by
  have hexport {s : Spot} (h : "import".toList <+: s.rest) : thenQuoted exportHead s = none := by
    refine Option.not_isSome_iff_eq_none.mp fun hsome => ?_
    obtain ⟨rest, hrest⟩ := h
    obtain ⟨rest', hrest'⟩ := prefix_of_thenQuoted hsome
    exact absurd (List.cons.inj (hrest.trans hrest'.symm)).1 (by decide)
  refine .cons ?_ (.cons ?_ (List.pairwise_singleton ..))
  · refine List.forall_mem_cons.mpr ⟨fun s hstatic => ?_, List.forall_mem_singleton.mpr ?_⟩
    · refine Option.not_isSome_iff_eq_none.mp fun hdynamic => ?_
      rw [static_of_dynamic hdynamic] at hstatic
      cases hstatic
    · exact fun s hstatic => hexport (prefix_of_thenQuoted hstatic)
  · refine List.forall_mem_singleton.mpr fun s hdynamic => hexport ?_
    exact prefix_of_thenQuoted (isSome_callHead_of_dynamic hdynamic)

/-- Whether two recognisers find the same wherever both find something. -/
def Agree (f g : Spot → Option (List Char × Spot)) : Prop :=
  ∀ s found found', f s = some found → g s = some found' → found = found'

theorem found_unique {find'? : Spot → Option (List Char × Spot)} {found found' : List Char × Spot}
    (hfind : find? ∈ recognisers) (hfind' : find'? ∈ recognisers) (h : find? s = some found)
    (h' : find'? s = some found') : found = found' := by
  have hsymm : Std.Symm Agree := ⟨fun f g h s a a' ha ha' => (h s a' a ha' ha).symm⟩
  have hself : ∀ f ∈ recognisers, Agree f f := fun f _ s a a' ha ha' =>
    Option.some.inj (ha.symm.trans ha')
  have hpair : recognisers.Pairwise Agree := recognisers_exclusive.imp fun h s a a' ha ha' => by
    rw [h s (ha ▸ rfl)] at ha'
    cases ha'
  exact hpair.forall_of_forall hself hfind hfind' s found found' h h'

/-! ## Names of packages -/

theorem parenOpen_mem_of_callHead (h : s' ∈ Form.callHead s) : '(' ∈ s.rest := by
  obtain ⟨-, rest, hrest, h⟩ := mem_head h
  obtain ⟨s₁, hs₁, h⟩ := mem_all_cons.mp h
  obtain ⟨s₂, hs₂, -⟩ := mem_all_cons.mp h
  have hmem : '(' ∈ s₁.rest := by
    rw [(eq_of_mem_word hs₂).1]
    exact List.mem_append_left _ (List.mem_singleton.mpr rfl)
  rw [hrest]
  rw [eq_run_of_mem_blanks hs₁] at hmem
  exact List.mem_append_right _ ((run_go_suffix ..).subset hmem)

theorem mark_mem_of_exportHead (h : s' ∈ exportHead s) : '*' ∈ s.rest ∨ '\x7b' ∈ s.rest := by
  obtain ⟨-, rest, hrest, h⟩ := mem_head h
  obtain ⟨s₁, hs₁, h⟩ := mem_all_cons.mp h
  obtain ⟨s₂, hs₂, -⟩ := mem_all_cons.mp h
  have hsuffix : s₁.rest <:+ s.rest := by
    rw [hrest, eq_run_of_mem_blanks hs₁]
    exact (run_go_suffix ..).trans (List.suffix_append ..)
  refine Or.imp (hsuffix.subset ·) (hsuffix.subset ·) ?_
  rcases mem_alt.mp hs₂ with hall | hlist
  · obtain ⟨s₃, hs₃, -⟩ := mem_all_cons.mp hall
    left
    rw [(eq_of_mem_word hs₃).1]
    exact List.mem_append_left _ (List.mem_singleton.mpr rfl)
  · obtain ⟨s₃, hs₃, hlist⟩ := mem_all_cons.mp hlist
    obtain ⟨s₄, hs₄, -⟩ := mem_all_cons.mp hlist
    obtain ⟨s₅, hs₅, -⟩ := mem_all_cons.mp hs₄
    obtain ⟨d, ds, hds, hd, -⟩ := mem_one.mp hs₅
    have hword : Stops (all [word "type", blanks]) := stops_all (by
      simp only [List.forall_mem_cons]
      exact ⟨stops_plain (by decide), stops_blanks, List.forall_mem_nil _⟩)
    have htype : s₃.rest <:+ s₁.rest := hword.opt.forward s₁ s₃ hs₃
    right
    refine htype.subset ?_
    rw [hds, ← beq_iff_eq.mp hd]
    exact List.mem_cons_self ..

/-- Only the word `import` at the end of a text without marks is a head of a statement. -/
theorem eq_import_of_importHead (hcs : ∀ c ∈ cs, inPackage c = true)
    (h : (importHead ⟨b, cs⟩).any (·.rest.isEmpty) = true) :
    cs = "import".toList ∧ b.any Text.isWord = false := by
  obtain ⟨s₁, hs₁, hempty⟩ := List.any_eq_true.mp h
  obtain ⟨hbound, rest, hrest, hs₁⟩ := mem_head hs₁
  simp only at hrest
  subst hrest
  have hb : b.any Text.isWord = false := by
    have hword : Text.isWord 'i' = true := by decide
    simpa [atBoundary, hword] using hbound
  obtain ⟨s₂, hs₂, hs₁⟩ := mem_all_cons.mp hs₁
  obtain ⟨hend, rfl⟩ := mem_boundary.mp hs₂
  obtain ⟨s₃, hs₃, hs₁⟩ := mem_all_cons.mp hs₁
  obtain ⟨s₄, hs₄, hs₁⟩ := mem_all_cons.mp hs₁
  obtain rfl := mem_all_nil.mp hs₁
  cases rest with
  | nil => exact ⟨List.append_nil _, hb⟩
  | cons c cs =>
      -- The word ends where a mark follows, and a mark binds nothing.
      have hc : inPackage c = true := hcs c (by simp)
      have hword : Text.isWord c = false := by
        have ht : Text.isWord 't' = true := by decide
        simpa [atBoundary, ht] using hend
      have hblank : Text.isBlank c = false := by
        obtain ⟨-, -, -, hblank, -⟩ := inPackage_plain hc
        exact hblank
      have hstay : s₃ = ⟨some 't', c :: cs⟩ := by
        refine (eq_run_of_mem_blanks hs₃).trans ?_
        simp [run, run.go, hblank]
      subst hstay
      rcases mem_opt.mp hs₄ with hclause | rfl
      · have hmark := inPackage_plain hc
        refine absurd hclause (not_mem_clause ?_ hblank hmark.2.2.2.2.2.2.1 hmark.2.2.2.2.2.1 _ _)
        simp [inName, hword, hmark.2.2.2.2.1]
      · cases hempty

end ScriptSandbox.Scan
