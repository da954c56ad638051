import Mathlib.Data.List.TakeWhile
import ScriptSandbox.Proofs.Modules.Specifier

/-!
# Packages and paths from the root

A package is looked for under the root by its name, and by a path from the root that begins with its
name. The two are read by different rules: `packageBase` counts segments, and `isRootPackagePath`
takes the path apart at its signs. They agree on all bare specifiers but those with an empty scope,
such as `@/x`, which `packageBase` takes for a package (`isRootPackagePath_slash`).

The package of a specifier is its own package, and the specifier is found where its package is
(`packageBase_self`, `resolve_append`).
-/

namespace ScriptSandbox

namespace Specifier

variable {s b : String} {cs path rest : List Char}

/-! ## What stands before and after a slash -/

theorem slash_not_mem_beforeSlash (cs : List Char) : '/' ∉ beforeSlash cs := by
  intro hmem
  have hslash := List.mem_takeWhile_imp hmem
  simp at hslash

theorem bne_slash (h : '/' ∉ cs) : ∀ c ∈ cs, (c != '/') = true := by
  rintro c hc
  refine bne_iff_ne.mpr ?_
  rintro rfl
  exact h hc

theorem beforeSlash_of_not_mem (h : '/' ∉ cs) : beforeSlash cs = cs :=
  List.takeWhile_eq_self_iff.mpr (bne_slash h)

theorem beforeSlash_append (h : '/' ∉ cs) (rest : List Char) :
    beforeSlash (cs ++ '/' :: rest) = cs := by
  rw [beforeSlash, List.takeWhile_append_of_pos (bne_slash h)]
  simp

theorem afterSlash?_append (h : '/' ∉ cs) (rest : List Char) :
    afterSlash? (cs ++ '/' :: rest) = some rest := by
  rw [afterSlash?, List.dropWhile_append_of_pos (bne_slash h)]
  simp

theorem beforeSlash_at (path : List Char) : beforeSlash ('@' :: path) = '@' :: beforeSlash path :=
  rfl

theorem afterSlash?_at (path : List Char) : afterSlash? ('@' :: path) = afterSlash? path := rfl

/-- Nothing stands before the first slash of a text if the text begins with a slash or is empty. -/
theorem beforeSlash_eq_nil_iff : beforeSlash cs = [] ↔ cs = [] ∨ cs.head? = some '/' := by
  cases cs with
  | nil => simp [beforeSlash]
  | cons c cs => by_cases hc : c = '/' <;> simp [beforeSlash, hc]

/-! ## The package of a specifier -/

theorem packageBase_of_not_at (hs : isBare s = true) (hat : startsWith s "@" = false) :
    packageBase s = some (String.ofList (beforeSlash s.toList)) := by
  simp [packageBase, hs, hat]

theorem packageBase_of_at (hs : isBare s = true) (hat : s.toList = '@' :: path) :
    packageBase s = (afterSlash? path).bind fun rest =>
      if (beforeSlash rest).isEmpty then none
      else some (String.ofList ('@' :: beforeSlash path ++ '/' :: beforeSlash rest)) := by
  have hstarts : startsWith s "@" = true := startsWith_iff.mpr ⟨path, hat.symm⟩
  rw [packageBase, if_neg (by simp [hs])]
  simp only [hstarts, if_true, hat, afterSlash?_at, beforeSlash_at]
  rfl

theorem startsWith_at_iff : startsWith s "@" = true ↔ ∃ path, s.toList = '@' :: path := by
  rw [startsWith_iff]
  exact exists_congr fun _ => eq_comm

theorem startsWith_at_slash (hpath : s.toList = '@' :: path) :
    startsWith s "@/" = (path.head? == some '/') := by
  rw [startsWith, hpath]
  cases path <;> simp [List.isPrefixOf, BEq.comm (a := '/')]

theorem packageBase_self (h : packageBase s = some b) : packageBase b = some b := by
  obtain ⟨hs, hb, hwithin⟩ := packageBase_spec h
  by_cases hat : startsWith s "@" = true
  · obtain ⟨path, hpath⟩ := startsWith_at_iff.mp hat
    rw [packageBase_of_at hs hpath] at h
    obtain ⟨rest, -, hbase⟩ := Option.bind_eq_some_iff.mp h
    split at hbase
    · cases hbase
    · next hname =>
        have hchars : b.toList = '@' :: (beforeSlash path ++ '/' :: beforeSlash rest) := by
          rw [← Option.some.inj hbase, String.toList_ofList]
          rfl
        rw [packageBase_of_at hb hchars, afterSlash?_append (slash_not_mem_beforeSlash path),
          beforeSlash_append (slash_not_mem_beforeSlash path), Option.bind_some,
          beforeSlash_of_not_mem (slash_not_mem_beforeSlash rest), if_neg hname]
        exact hbase
  · rw [packageBase_of_not_at hs (Bool.eq_false_iff.mpr hat)] at h
    have hchars : b.toList = beforeSlash s.toList := by
      rw [← Option.some.inj h, String.toList_ofList]
    have hnot : startsWith b "@" = false := Bool.eq_false_iff.mpr fun h => hat (hwithin.startsWith h)
    rw [packageBase_of_not_at hb hnot, hchars,
      beforeSlash_of_not_mem (slash_not_mem_beforeSlash s.toList), ← hchars, String.ofList_toList]

/-- A package in the root directory is a path from the root, unless its scope is empty. -/
theorem isRootPackagePath_slash (hs : isBare s = true) : isRootPackagePath ("/" ++ s) = true ↔
    (packageBase s).isSome = true ∧ startsWith s "@/" = false := by
  have hslash : ("/" ++ s).toList = '/' :: s.toList := String.toList_append
  by_cases hat : startsWith s "@" = true
  · obtain ⟨path, hpath⟩ := startsWith_at_iff.mp hat
    rw [packageBase_of_at hs hpath, startsWith_at_slash hpath, isRootPackagePath, hslash, hpath]
    cases hafter : afterSlash? path with
    | none => simp [hafter]
    | some rest =>
        have hscope : beforeSlash path = [] ↔ path.head? = some '/' := by
          rw [beforeSlash_eq_nil_iff, or_iff_right]
          rintro rfl
          cases hafter
        by_cases hname : rest = [] ∨ rest.head? = some '/'
        · have hempty : beforeSlash rest = [] := beforeSlash_eq_nil_iff.mpr hname
          rcases hname with rfl | hname
          · simp [hafter, hempty]
          · simp [hafter, hempty, hname]
        · have hfull : beforeSlash rest ≠ [] := mt beforeSlash_eq_nil_iff.mp hname
          obtain ⟨hne, hhead⟩ := not_or.mp hname
          simp [hafter, hfull, hscope, hne, hhead]
  · have hnot : startsWith s "@/" = false := Bool.eq_false_iff.mpr fun h =>
      hat (startsWith_iff.mpr ((List.prefix_append ['@'] ['/']).trans (startsWith_iff.mp h)))
    have hfirst : beforeSlash s.toList ≠ [] := beforeSlash_ne_nil hs
    rw [packageBase_of_not_at hs (Bool.eq_false_iff.mpr hat), hnot, isRootPackagePath, hslash]
    cases hchars : s.toList with
    | nil => simp [hchars, beforeSlash] at hfirst
    | cons c cs =>
        have hc : c ≠ '@' := by
          rintro rfl
          exact hat (startsWith_at_iff.mpr ⟨cs, hchars⟩)
        have hc' : c ≠ '/' := by
          rintro rfl
          exact hfirst (beforeSlash_eq_nil_iff.mpr (.inr (by rw [hchars]; rfl)))
        split
        · next heq => exact absurd (List.cons.inj (List.cons.inj heq).2).1 hc
        · next heq =>
            obtain ⟨rfl, -⟩ := List.cons.inj (List.cons.inj heq).2
            simp [hc']
        · next hne => exact absurd rfl (hne c cs)

end Specifier

namespace Resolver

variable {s b : String}

theorem resolve_slash_eq_iff (r : Resolver) (hs : Specifier.isBare s = true) :
    r.resolve ("/" ++ s) = r.resolve s ↔ Specifier.isRootPackagePath ("/" ++ s) = true := by
  have hrel : Specifier.isRelative ("/" ++ s) = true :=
    Specifier.isRelative_iff.mpr (.inr (.inr (.inl (Specifier.startsWith_iff.mpr
      (String.toList_append ▸ List.prefix_append ..)))))
  have habs : Specifier.isAbsoluteUrl ("/" ++ s) = false := Bool.eq_false_iff.mpr fun habs =>
    absurd hrel (by simp [Specifier.isRelative_of_isAbsoluteUrl habs])
  rw [resolve_bare r hs, under, resolve, habs]
  cases Specifier.isRootPackagePath ("/" ++ s) with
  | true => simp [String.append_assoc]
  | false =>
      simp only [Bool.false_eq_true, if_false, iff_false]
      intro heq
      have hlength := congrArg String.length heq
      simp at hlength

theorem resolve_append (r : Resolver) (h : Specifier.packageBase s = some b) :
    ∃ rest, s = b ++ rest ∧ r.resolve s = r.resolve b ++ rest := by
  obtain ⟨hs, hb, hwithin⟩ := Specifier.packageBase_spec h
  obtain ⟨rest, hrest⟩ := hwithin.prefix
  have hsplit : s = b ++ String.ofList rest := by
    rw [← String.toList_inj, String.toList_append, String.toList_ofList, hrest]
  refine ⟨String.ofList rest, hsplit, ?_⟩
  rw [resolve_bare r hs, resolve_bare r hb, hsplit, under, under, ← String.append_assoc]

/-- A bare specifier has a package as a path from the root has one, and is found where that path is;
only an empty scope makes a package without making such a path. The package is its own package, and
the specifier is the package or a path into it, and is found where the package is. -/
theorem resolve_package (r : Resolver) (hs : Specifier.isBare s = true) :
    (Specifier.isRootPackagePath ("/" ++ s) = true ↔
        (Specifier.packageBase s).isSome = true ∧ Specifier.startsWith s "@/" = false) ∧
      (r.resolve ("/" ++ s) = r.resolve s ↔
        (Specifier.packageBase s).isSome = true ∧ Specifier.startsWith s "@/" = false) ∧
      ∀ b, Specifier.packageBase s = some b →
        Specifier.isBare b = true ∧ Specifier.packageBase b = some b ∧ Specifier.Within b s ∧
          ∃ rest, s = b ++ rest ∧ r.resolve s = r.resolve b ++ rest := by
  refine ⟨Specifier.isRootPackagePath_slash hs, ?_, fun b h => ?_⟩
  · rw [resolve_slash_eq_iff r hs, Specifier.isRootPackagePath_slash hs]
  · obtain ⟨-, hb, hwithin⟩ := Specifier.packageBase_spec h
    exact ⟨hb, Specifier.packageBase_self h, hwithin, r.resolve_append h⟩

theorem resolve_package_scoped :
    Specifier.isBare "@scope/pkg@2/sub" = true ∧
      standard.resolve "/@scope/pkg@2/sub" = standard.resolve "@scope/pkg@2/sub" ∧
      Specifier.packageBase "@scope/pkg@2" = some "@scope/pkg@2" := by
  have hbare : Specifier.isBare "@scope/pkg@2/sub" = true := by decide
  obtain ⟨-, hresolve, hbase⟩ := resolve_package standard hbare
  exact ⟨hbare, hresolve.mpr ⟨by decide, by decide⟩, (hbase _ (by decide)).2.1⟩

/-- With an empty scope there is a package, but no path from the root that names it. -/
theorem empty_scope :
    Specifier.isBare "@/x" = true ∧ Specifier.packageBase "@/x" = some "@/x" ∧
      Specifier.isRootPackagePath "/@/x" = false ∧
      standard.resolve "/@/x" ≠ standard.resolve "@/x" := by
  decide

end Resolver
end ScriptSandbox
