import Mathlib.Order.Nat
import ScriptSandbox.Proofs.Scan.Comments
import ScriptSandbox.Proofs.Scan.Composition

/-!
# What is reported is there

Whatever a source is, well formed or not, each specifier that is reported is the text between two
quotes of its code, trimmed, and what names it first, the word `import` or `export` and the quotes,
stands outside the comments (`Reported`). The specifiers come without repetition, and each before
those that are named later (`scanImports_sound`). The order rests on `firstSeen_ordered`: what is
kept of a list whose places rise is in the order of its first places.
-/

namespace ScriptSandbox.Scan

/-! ## What is seen first -/

@[simp] theorem mem_firstSeen {us : List String} {s : String} : s ∈ firstSeen us ↔ s ∈ us := by
  induction us using List.reverseRecOn with
  | nil => rfl
  | append_singleton us u ih =>
      rw [firstSeen_concat, List.mem_append, List.mem_singleton]
      by_cases hu : (firstSeen us).contains u = true
      · rw [if_pos hu, ih]
        constructor
        · exact Or.inl
        · rintro (hs | rfl)
          · exact hs
          · exact ih.mp (List.contains_iff_mem.mp hu)
      · rw [if_neg hu, List.mem_append, List.mem_singleton, ih]

theorem nodup_firstSeen (us : List String) : (firstSeen us).Nodup := by
  induction us using List.reverseRecOn with
  | nil => exact List.nodup_nil
  | append_singleton us u ih =>
      rw [firstSeen_concat]
      split
      · exact ih
      · next hu =>
          rw [List.contains_iff_mem] at hu
          exact List.nodup_append.mpr ⟨ih, List.nodup_singleton u, fun s hs t ht heq =>
            hu (List.mem_singleton.mp ht ▸ heq ▸ hs)⟩

theorem firstSeen_ordered {α : Type} {key : α → Nat} {f : α → Option String} {es : List α}
    (h : es.Pairwise fun e e' => key e ≤ key e') :
    (firstSeen (es.filterMap f)).Pairwise fun s t =>
      ∃ e ∈ es, f e = some s ∧ ∀ e' ∈ es, f e' = some t → key e ≤ key e' := by
  induction es using List.reverseRecOn with
  | nil => exact List.Pairwise.nil
  | append_singleton es e₀ ih =>
      obtain ⟨hes, -, hlast⟩ := List.pairwise_append.mp h
      have hle : ∀ e ∈ es, key e ≤ key e₀ := fun e he =>
        hlast e he e₀ (List.mem_singleton.mpr rfl)
      -- What named `s` first still does: the new element comes last.
      have hkept {s t : String}
          (hst : ∃ e ∈ es, f e = some s ∧ ∀ e' ∈ es, f e' = some t → key e ≤ key e') :
          ∃ e ∈ es ++ [e₀], f e = some s ∧
            ∀ e' ∈ es ++ [e₀], f e' = some t → key e ≤ key e' := by
        obtain ⟨e, he, hs, hfirst⟩ := hst
        refine ⟨e, List.mem_append_left _ he, hs, fun e' he' ht => ?_⟩
        rcases List.mem_append.mp he' with he' | he'
        · exact hfirst e' he' ht
        · rw [List.mem_singleton.mp he']
          exact hle e he
      rw [List.filterMap_append]
      cases hu : f e₀ with
      | none =>
          rw [List.filterMap_cons_none hu, List.filterMap_nil, List.append_nil]
          exact (ih hes).imp hkept
      | some u =>
          rw [List.filterMap_cons_some hu, List.filterMap_nil, firstSeen_concat]
          split
          · exact (ih hes).imp hkept
          · next hnew =>
              refine List.pairwise_append.mpr ⟨(ih hes).imp hkept, List.pairwise_singleton .., ?_⟩
              intro s hs t ht
              obtain rfl := List.mem_singleton.mp ht
              obtain ⟨e, he, hes⟩ := List.mem_filterMap.mp (mem_firstSeen.mp hs)
              refine ⟨e, List.mem_append_left _ he, hes, fun e' he' ht => ?_⟩
              rcases List.mem_append.mp he' with he' | he'
              · have hseen : t ∈ firstSeen (es.filterMap f) :=
                  mem_firstSeen.mpr (List.mem_filterMap.mpr ⟨e', he', ht⟩)
                exact absurd (List.contains_iff_mem.mpr hseen) hnew
              · rw [List.mem_singleton.mp he']
                exact hle e he

/-! ## Specifiers are trimmed -/

theorem trim_trim (cs : List Char) : Text.trim (Text.trim cs) = Text.trim cs := by
  apply trim_eq
  have hlast (ds : List Char) (c : Char) (hc : (Text.trimEnd ds).getLast? = some c) :
      Text.isBlank c = false := by
    rw [Text.trimEnd, List.getLast?_reverse] at hc
    have hnot := List.head?_dropWhile_not Text.isBlank ds.reverse
    rw [hc] at hnot
    simpa using hnot
  intro c hc
  rcases hc with hhead | hend
  · have hstart : (Text.trimStart cs).head? = some c := by
      have hpre : Text.trimEnd (Text.trimStart cs) <+: Text.trimStart cs := by
        have hsuffix := List.dropWhile_suffix Text.isBlank (l := (Text.trimStart cs).reverse)
        simpa [Text.trimEnd] using List.reverse_prefix.mpr hsuffix
      obtain ⟨more, hmore⟩ := hpre
      rw [← hmore, List.head?_append]
      rw [Text.trim] at hhead
      rw [hhead]
      rfl
    have hnot := List.head?_dropWhile_not Text.isBlank cs
    rw [Text.trimStart] at hstart
    rw [hstart] at hnot
    simpa using hnot
  · exact hlast _ c hend

theorem hasSubstitution_of_within {cs : List Char} (h : ['$', '\x7b'] <:+: cs) :
    hasSubstitution cs = true := by
  fun_induction hasSubstitution cs with
  | case1 cs => rfl
  | case2 c cs hmark ih =>
      rcases List.infix_cons_iff.mp h with ⟨more, hmore⟩ | hrest
      · obtain ⟨rfl, rfl⟩ := List.cons.inj hmore
        exact absurd rfl (hmark more rfl)
      · exact ih hrest
  | case3 => simp at h

theorem specifierOf_eq_some {text : List Char} {s : String} (h : specifierOf text = some s) :
    s.toList = Text.trim text ∧ s ≠ "" ∧ Text.trim s.toList = s.toList ∧
      ¬ ['$', '\x7b'] <:+: s.toList := by
  rw [specifierOf] at h
  split at h
  · cases h
  · next hkept =>
      obtain rfl := Option.some.inj h
      rw [Bool.or_eq_true, not_or] at hkept
      rw [String.toList_ofList]
      refine ⟨rfl, ?_, trim_trim text, fun hsub => hkept.2 (hasSubstitution_of_within hsub)⟩
      intro hempty
      have hnil : Text.trim text = [] := by simpa using congrArg String.toList hempty
      exact hkept.1 (by rw [hnil]; rfl)

/-! ## Places that name a specifier -/

/-- A match of one of the recognisers begins at a place of the code and names a specifier. -/
def NamedAt (source s : String) (place : Nat) : Prop :=
  ∃ text, (place, text) ∈ foundIn none 0 (blankComments source.toList) ∧ specifierOf text = some s

theorem mem_scanImports_iff {source s : String} :
    s ∈ scanImports source ↔ ∃ place, NamedAt source s place := by
  rw [scanImports_eq, mem_firstSeen, specifiers, List.mem_filterMap]
  constructor
  · rintro ⟨⟨place, text⟩, he, hs⟩
    exact ⟨place, text, List.mem_mergeSort.mp he, hs⟩
  · rintro ⟨place, text, he, hs⟩
    exact ⟨(place, text), List.mem_mergeSort.mpr he, hs⟩

theorem NamedAt.unique {source s t : String} {place : Nat} (hs : NamedAt source s place)
    (ht : NamedAt source t place) : s = t := by
  obtain ⟨text, he, hs⟩ := hs
  obtain ⟨text', he', ht⟩ := ht
  have hsame := congrArg Prod.snd (foundIn_unique he he' rfl)
  simp only at hsame
  rw [hsame, ht] at hs
  exact (Option.some.inj hs).symm

/-- Each element of what is found stands in quotes behind a word that begins a statement. -/
theorem NamedAt.quoted {source s : String} {place : Nat} (h : NamedAt source s place) :
    ∃ front κ text back, blankComments source.toList = front ++ κ :: (text ++ κ :: back) ∧
      isQuote κ = true ∧ Quotable κ text ∧ s.toList = Text.trim text ∧ place ≤ front.length ∧
      ("import".toList <+: (blankComments source.toList).drop place ∨
        "export".toList <+: (blankComments source.toList).drop place) := by
  obtain ⟨text, he, hs⟩ := h
  obtain ⟨find?, hfind, he⟩ := List.mem_flatMap.mp he
  obtain ⟨start, rest, s', hcode, hplace, hfound⟩ := mem_findAll he
  rw [Nat.zero_add] at hplace
  have hword := prefix_of_found hfind (Option.isSome_iff_exists.mpr ⟨_, hfound⟩)
  obtain ⟨s₁, s₂, hsuffix, hquoted⟩ := exists_quoted?_of_found hfind hfound
  obtain ⟨κ, after, hκ, hrest, -⟩ := eq_of_quoted? hquoted
  have hquotable := quotable_of_quoted? hquoted κ (by rw [hrest]; rfl)
  obtain ⟨lead, hlead⟩ := hsuffix
  simp only at hlead hword
  rw [hrest] at hlead
  refine ⟨start ++ lead, κ, text, after, ?_, hκ, hquotable, (specifierOf_eq_some hs).1, ?_, ?_⟩
  · rw [hcode, ← hlead, List.append_assoc]
  · rw [hplace, List.length_append]
    exact Nat.le_add_right _ _
  · rw [hcode, hplace, List.drop_left]
    exact hword

/-- Whether a place of a source is in it and outside its comments. -/
def Free (source : String) (place : Nat) : Prop := (comments source.toList)[place]? = some false

theorem free_of_split {source : String} {front back : List Char} {c : Char}
    (h : blankComments source.toList = front ++ c :: back) (hc : Text.isBlank c = false) :
    Free source front.length := by
  have hat : (blankComments source.toList)[front.length]? = some c := by simp [h]
  exact (getElem?_of_blankComments hat hc).2

theorem free_of_prefix {source : String} {place : Nat} {word : List Char}
    (h : word <+: (blankComments source.toList).drop place)
    (hword : word.any Text.isBlank = false) {i : Nat} (hi : i < word.length) :
    Free source (place + i) := by
  have hchar : Text.isBlank word[i] = false := by
    simpa using List.any_eq_false.mp hword word[i] (List.getElem_mem hi)
  have hat : (blankComments source.toList)[place + i]? = some word[i] := by
    obtain ⟨more, hmore⟩ := h
    rw [← List.getElem?_drop, ← hmore, List.getElem?_append_left hi, List.getElem?_eq_getElem hi]
  exact (getElem?_of_blankComments hat hchar).2

/-- What is true of a specifier that is reported: it is trimmed and not empty, it has no
substitution, and it is what stands between two quotes of the code. The word of the statement that
names it first and both quotes stand outside the comments. -/
structure Reported (source s : String) : Prop where
  ne_empty : s ≠ ""
  trimmed : Text.trim s.toList = s.toList
  whole : ¬ ['$', '\x7b'] <:+: s.toList
  written : ∃ place front κ text back, IsLeast {p | NamedAt source s p} place ∧
    blankComments source.toList = front ++ κ :: (text ++ κ :: back) ∧
    isQuote κ = true ∧ (∀ c ∈ text, c ≠ κ ∧ (κ = '`' ∨ c ≠ '\n')) ∧ Text.trim text = s.toList ∧
    place ≤ front.length ∧ (∀ i < 6, Free source (place + i)) ∧ Free source front.length ∧
    Free source (front.length + text.length + 1)

theorem exists_isLeast {source s : String} (hs : s ∈ scanImports source) :
    ∃ place, IsLeast {p | NamedAt source s p} place := by
  classical
  exact ⟨_, Nat.isLeast_find (mem_scanImports_iff.mp hs)⟩

theorem reported_of_mem {source s : String} (hs : s ∈ scanImports source) : Reported source s := by
  obtain ⟨place, hplace⟩ := exists_isLeast hs
  obtain ⟨text, -, hspecifier⟩ := hplace.1
  obtain ⟨-, hne, htrim, hwhole⟩ := specifierOf_eq_some hspecifier
  obtain ⟨front, κ, text, back, hcode, hκ, hquotable, htext, hle, hword⟩ := hplace.1.quoted
  have hquote := isBlank_of_isQuote hκ
  refine ⟨hne, htrim, hwhole, place, front, κ, text, back, hplace, hcode, hκ, hquotable, htext.symm,
    hle, ?_, free_of_split hcode hquote, ?_⟩
  · intro i hi
    rcases hword with hword | hword
    · exact free_of_prefix hword (by decide) hi
    · exact free_of_prefix hword (by decide) hi
  · have hclose : blankComments source.toList = (front ++ κ :: text) ++ κ :: back := by
      rw [hcode, List.append_assoc, List.cons_append]
    have hfree := free_of_split hclose hquote
    rwa [List.length_append, List.length_cons, ← Nat.add_assoc] at hfree

/-- Whatever a source is, what it is reported to name is there: no specifier is reported twice, each
is the trimmed text of two quotes outside the comments, and the specifiers come in the order of the
places where the first match that names each of them begins. -/
theorem scanImports_sound (source : String) :
    (scanImports source).Nodup ∧
      (∀ s ∈ scanImports source, Reported source s) ∧
      (scanImports source).Pairwise fun s t =>
        ∃ p q, IsLeast {x | NamedAt source s x} p ∧ IsLeast {x | NamedAt source t x} q ∧ p < q := by
  have hnodup : (scanImports source).Nodup := nodup_firstSeen _
  refine ⟨hnodup, fun s hs => reported_of_mem hs, ?_⟩
  let found := (foundIn none 0 (blankComments source.toList)).mergeSort fun a b => a.1 ≤ b.1
  have hordered : (scanImports source).Pairwise fun s t => ∃ e ∈ found, specifierOf e.2 = some s ∧
      ∀ e' ∈ found, specifierOf e'.2 = some t → e.1 ≤ e'.1 :=
    firstSeen_ordered (pairwise_ordered _)
  refine (hordered.and hnodup).imp_of_mem fun {s t} hs ht h => ?_
  obtain ⟨⟨e, he, hes, hfirst⟩, hne⟩ := h
  obtain ⟨p, hp⟩ := exists_isLeast hs
  obtain ⟨q, hq⟩ := exists_isLeast ht
  refine ⟨p, q, hp, hq, ?_⟩
  have hpe : p ≤ e.1 := hp.2 ⟨e.2, List.mem_mergeSort.mp he, hes⟩
  have heq : e.1 ≤ q := by
    obtain ⟨text, htext, hspecifier⟩ := hq.1
    exact hfirst (q, text) (List.mem_mergeSort.mpr htext) hspecifier
  have hpq : p ≠ q := by
    rintro rfl
    exact hne (hp.1.unique hq.1)
  omega

end ScriptSandbox.Scan
