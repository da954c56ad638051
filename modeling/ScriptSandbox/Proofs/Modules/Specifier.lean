import ScriptSandbox.Modules.Specifier

/-!
# Bare specifiers and their packages

A bare specifier is found under the root, whichever module holds it (`resolve_bare`,
`resolveFrom_bare`). The package that it names is bare as well, and the specifier is the package or
a path into it (`packageBase_spec`).
-/

namespace ScriptSandbox

namespace Specifier

variable {s b start : String}

theorem startsWith_iff : startsWith s start = true ↔ start.toList <+: s.toList :=
  List.isPrefixOf_iff_prefix

/-- A specifier is a package, or a path into it. -/
def Within (b s : String) : Prop := s = b ∨ startsWith s (b ++ "/") = true

theorem Within.prefix (h : Within b s) : b.toList <+: s.toList := by
  rcases h with rfl | h
  · exact List.prefix_refl _
  · rw [startsWith_iff, String.toList_append] at h
    exact (List.prefix_append _ _).trans h

/-! ## The kinds of specifiers -/

theorem isBare_iff :
    isBare s = true ↔ s ≠ "" ∧ isRelative s = false ∧ isAbsoluteUrl s = false := by
  simp [isBare, and_assoc]

theorem isRelative_iff :
    isRelative s = true ↔ startsWith s "./" = true ∨ startsWith s "../" = true ∨
      startsWith s "/" = true ∨ s = "." ∨ s = ".." := by
  simp [isRelative, or_assoc]

theorem isAbsoluteUrl_iff :
    isAbsoluteUrl s = true ↔ startsWith s "https://" = true ∨ startsWith s "http://" = true := by
  simp [isAbsoluteUrl]

theorem head?_of_startsWith (h : startsWith s start = true) {c : Char}
    (hc : start.toList.head? = some c) : s.toList.head? = some c := by
  obtain ⟨rest, hrest⟩ := startsWith_iff.mp h
  rw [← hrest, List.head?_append, hc]
  rfl

theorem head?_of_isRelative (h : isRelative s = true) :
    s.toList.head? = some '.' ∨ s.toList.head? = some '/' := by
  rcases isRelative_iff.mp h with h | h | h | rfl | rfl
  · exact .inl (head?_of_startsWith h rfl)
  · exact .inl (head?_of_startsWith h rfl)
  · exact .inr (head?_of_startsWith h rfl)
  · exact .inl rfl
  · exact .inl rfl

/-- A URL of the web is no path. -/
theorem isRelative_of_isAbsoluteUrl (h : isAbsoluteUrl s = true) : isRelative s = false := by
  have hhead : s.toList.head? = some 'h' := by
    rcases isAbsoluteUrl_iff.mp h with h | h <;> exact head?_of_startsWith h rfl
  refine Bool.eq_false_iff.mpr fun hrel => ?_
  rcases head?_of_isRelative hrel with hdot | hslash
  · exact absurd (Option.some.inj (hhead.symm.trans hdot)) (by decide)
  · exact absurd (Option.some.inj (hhead.symm.trans hslash)) (by decide)

theorem isRelative_of_isRootPackagePath (h : isRootPackagePath s = true) : isRelative s = true := by
  have hslash : startsWith s "/" = true := by
    unfold isRootPackagePath at h
    split at h
    · next hs => exact startsWith_iff.mpr ⟨_, hs.symm⟩
    · next hs => exact startsWith_iff.mpr ⟨_, hs.symm⟩
    · cases h
  exact isRelative_iff.mpr (.inr (.inr (.inl hslash)))

theorem Within.startsWith (h : Within b s) (hb : startsWith b start = true) :
    startsWith s start = true :=
  startsWith_iff.mpr ((startsWith_iff.mp hb).trans h.prefix)

/-- If a specifier is bare, so is the package that it is, or into which it is a path. -/
theorem Within.isBare (h : Within b s) (hb : b ≠ "") (hs : isBare s = true) :
    Specifier.isBare b = true := by
  obtain ⟨-, hrel, habs⟩ := isBare_iff.mp hs
  refine isBare_iff.mpr ⟨hb, Bool.eq_false_iff.mpr fun hrel' => ?_,
    Bool.eq_false_iff.mpr fun habs' => ?_⟩
  · refine Bool.eq_false_iff.mp hrel (isRelative_iff.mpr ?_)
    -- A lone dot or two become the beginning of a path.
    rcases isRelative_iff.mp hrel' with hdot | hdots | hslash | rfl | rfl
    · exact .inl (h.startsWith hdot)
    · exact .inr (.inl (h.startsWith hdots))
    · exact .inr (.inr (.inl (h.startsWith hslash)))
    · exact h.elim (fun heq => .inr (.inr (.inr (.inl heq)))) .inl
    · exact h.elim (fun heq => .inr (.inr (.inr (.inr heq)))) fun hpath => .inr (.inl hpath)
  · refine Bool.eq_false_iff.mp habs (isAbsoluteUrl_iff.mpr ?_)
    exact (isAbsoluteUrl_iff.mp habs').imp h.startsWith h.startsWith

/-! ## The package of a specifier -/

/-- A text is what stands before its first slash, the slash, and what stands after it. -/
theorem eq_beforeSlash_append (cs : List Char) :
    cs = beforeSlash cs ++ ((afterSlash? cs).map ('/' :: ·)).getD [] := by
  have hsplit : beforeSlash cs ++ cs.dropWhile (· != '/') = cs := List.takeWhile_append_dropWhile
  rw [afterSlash?]
  cases hrest : cs.dropWhile (· != '/') with
  | nil => rw [hrest] at hsplit; exact hsplit.symm
  | cons c rest =>
      have hc : c = '/' := by
        have hfirst := List.head?_dropWhile_not (· != '/') cs
        rw [hrest] at hfirst
        simpa using hfirst
      rw [hrest, hc] at hsplit
      exact hsplit.symm

theorem within_of_toList (rest : Option (List Char))
    (h : s.toList = b.toList ++ (rest.map ('/' :: ·)).getD []) : Within b s := by
  cases rest with
  | none =>
      refine .inl (String.toList_inj.mp (h.trans ?_))
      simp
  | some rest =>
      refine .inr (startsWith_iff.mpr ⟨rest, ?_⟩)
      rw [h, String.toList_append, List.append_assoc]
      rfl

/-- What stands before the first slash of a bare specifier is not empty. -/
theorem beforeSlash_ne_nil (hs : isBare s = true) : beforeSlash s.toList ≠ [] := by
  obtain ⟨hne, hrel, -⟩ := isBare_iff.mp hs
  intro hnil
  have hsplit := eq_beforeSlash_append s.toList
  rw [hnil, List.nil_append] at hsplit
  cases hafter : afterSlash? s.toList with
  | none =>
      rw [hafter] at hsplit
      exact hne (String.toList_eq_nil_iff.mp hsplit)
  | some rest =>
      rw [hafter] at hsplit
      have hslash : startsWith s "/" = true := startsWith_iff.mpr ⟨rest, hsplit.symm⟩
      exact Bool.eq_false_iff.mp hrel (isRelative_iff.mpr (.inr (.inr (.inl hslash))))

/-- The package of a specifier is bare, and the specifier is the package or a path into it. -/
theorem packageBase_spec (h : packageBase s = some b) :
    isBare s = true ∧ isBare b = true ∧ Within b s := by
  have hbare : isBare s = true := by
    refine Decidable.byContradiction fun hnot => ?_
    rw [packageBase, if_pos (by simpa using hnot)] at h
    cases h
  suffices hbase : b ≠ "" ∧ Within b s from ⟨hbare, hbase.2.isBare hbase.1 hbare, hbase.2⟩
  have hsplit := eq_beforeSlash_append s.toList
  rw [packageBase, if_neg (by simp [hbare])] at h
  split at h
  · -- A scope: the package goes on to the second slash.
    cases hafter : afterSlash? s.toList with
    | none =>
        simp only [hafter] at h
        cases h
    | some after =>
        have hsplit' := eq_beforeSlash_append after
        rw [hafter] at hsplit
        simp only [hafter, Option.bind_eq_bind, Option.bind_some] at h
        split at h
        · cases h
        · obtain rfl := Option.some.inj h
          refine ⟨?_, within_of_toList (afterSlash? after) ?_⟩
          · intro hempty
            have := congrArg String.toList hempty
            simp at this
          · rw [String.toList_ofList, List.append_assoc, List.cons_append, ← hsplit']
            exact hsplit
  · obtain rfl := Option.some.inj h
    refine ⟨?_, within_of_toList (afterSlash? s.toList) ?_⟩
    · intro hempty
      have := congrArg String.toList hempty
      rw [String.toList_ofList] at this
      exact beforeSlash_ne_nil hbare this
    · rw [String.toList_ofList]
      exact hsplit

end Specifier

/-! ## Where a bare specifier is found -/

namespace Resolver

variable {s : String}

def under (r : Resolver) (name : String) : String := r.root ++ "/" ++ name

theorem resolve_bare (r : Resolver) (h : Specifier.isBare s = true) : r.resolve s = r.under s := by
  obtain ⟨-, hrel, habs⟩ := Specifier.isBare_iff.mp h
  have hpath : Specifier.isRootPackagePath s = false := Bool.eq_false_iff.mpr fun hpath =>
    Bool.eq_false_iff.mp hrel (Specifier.isRelative_of_isRootPackagePath hpath)
  rw [resolve, habs, hpath]
  rfl

theorem resolveFrom_of_not_isRelative (r : Resolver) (base : String)
    (h : Specifier.isRelative s = false) : r.resolveFrom base s = r.resolve s := by
  rw [resolveFrom, h]
  rfl

/-- Which module holds a bare specifier is of no importance. -/
theorem resolveFrom_bare (r : Resolver) (base : String) (h : Specifier.isBare s = true) :
    r.resolveFrom base s = r.under s := by
  rw [resolveFrom_of_not_isRelative r base (Specifier.isBare_iff.mp h).2.1, resolve_bare r h]

end Resolver

end ScriptSandbox
