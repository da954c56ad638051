import ScriptSandbox.Proofs.Modules.Resolution
import ScriptSandbox.Proofs.Url.Web

/-!
# Modules that are not in memory are on the web

If the root is a URL of the web, so is every name that a resolver makes, except that a module in
memory goes by the name it has. It does not matter what is written, nor which module it is written
in; and a name that has been made stands for itself from then on (`Named.resolve`).
-/

namespace ScriptSandbox

open Specifier ImportMap

variable {r : Resolver} {res : Resolution} {base s t name : String}

/-- A URL of the web is not the name of a module in memory. -/
theorem Specifier.isInline_of_isAbsoluteUrl (h : isAbsoluteUrl s = true) : isInline s = false := by
  have hhead : s.toList.head? = some 'h' := by
    rcases isAbsoluteUrl_iff.mp h with h | h <;> exact head?_of_startsWith h rfl
  refine Bool.eq_false_iff.mpr fun hinline => ?_
  exact absurd (hhead.symm.trans (head?_of_startsWith (c := 'j') hinline rfl)) (by decide)

theorem Specifier.isAbsoluteUrl_append (h : isAbsoluteUrl s = true) (t : String) :
    isAbsoluteUrl (s ++ t) = true := by
  have hprefix {start : String} (hs : startsWith s start = true) :
      startsWith (s ++ t) start = true := by
    rw [startsWith_iff] at hs ⊢
    rw [String.toList_append]
    exact hs.trans (List.prefix_append _ _)
  exact isAbsoluteUrl_iff.mpr ((isAbsoluteUrl_iff.mp h).imp hprefix hprefix)

namespace Resolver

theorem isAbsoluteUrl_resolve (hroot : isAbsoluteUrl r.root = true) (s : String) :
    isAbsoluteUrl (r.resolve s) = true := by
  rw [resolve]
  split
  · next h => exact h
  · split
    · exact isAbsoluteUrl_append hroot s
    · exact isAbsoluteUrl_append (isAbsoluteUrl_append hroot "/") s

/-- A path joined onto a URL of the web, if that can be done, is one itself. -/
theorem isAbsoluteUrl_of_join (hbase : isAbsoluteUrl base = true) (hs : isRelative s = true)
    (h : join base s = some t) : isAbsoluteUrl t = true := by
  simp only [join, Option.bind_eq_bind, Option.pure_def, Option.bind_eq_some_iff] at h
  obtain ⟨u, hu, v, hv, htext⟩ := h
  obtain rfl := Option.some.inj htext
  have hweb : v.OnWeb := by
    rcases head?_of_isRelative hs with hdot | hslash
    · exact Url.join?_onWeb (Url.read?_onWeb hbase hu) hdot (.inl rfl) hv
    · exact Url.join?_onWeb (Url.read?_onWeb hbase hu) hslash (.inr rfl) hv
  exact Url.isAbsoluteUrl_text hweb

theorem isAbsoluteUrl_resolveFrom (hroot : isAbsoluteUrl r.root = true) (base s : String) :
    isAbsoluteUrl (r.resolveFrom base s) = true := by
  rw [resolveFrom]
  split
  · next h =>
      rw [Bool.and_eq_true] at h
      split
      · next hjoin => exact isAbsoluteUrl_of_join h.2 h.1 hjoin
      · exact isAbsoluteUrl_resolve hroot s
  · exact isAbsoluteUrl_resolve hroot s

end Resolver

/-! ## Names of modules -/

/-- Modules are found by a resolver, or by a map that has grown from the empty one by it. -/
inductive Resolution.Of (r : Resolver) : Resolution → Prop
  | network : Of r (.network r)
  | mapped (calls : List Growth) : Of r (.mapped (grown r calls) r)

/-- A module goes by a name as it should if a module in memory is asked for: the name is the one
that is written then, and a URL of the web otherwise. -/
structure Named (written name : String) : Prop where
  inline : isInline name = isInline written
  absolute : isAbsoluteUrl name = !isInline written
  eq_of_inline : isInline written = true → name = written

theorem Resolver.named_moduleName (hroot : isAbsoluteUrl r.root = true) (base s : String) :
    Named s (r.moduleName base s) := by
  rw [moduleName]
  cases hinline : isInline s with
  | true =>
      have habs : isAbsoluteUrl s = false := Bool.eq_false_iff.mpr fun habs =>
        absurd (hinline.symm.trans (isInline_of_isAbsoluteUrl habs)) (by decide)
      exact ⟨rfl, by simp [hinline, habs], fun _ => rfl⟩
  | false =>
      have habs := isAbsoluteUrl_resolveFrom hroot base s
      exact ⟨by simp [hinline, isInline_of_isAbsoluteUrl habs], by simp [hinline, habs],
        fun h => absurd h (by simp [hinline])⟩

/-- Whatever finds a module, it finds the one that the resolver names. -/
theorem Resolution.Of.resolve_eq (h : res.Of r) (hfound : res.resolve base s = some name) :
    name = r.moduleName base s := by
  cases h with
  | network => exact (Option.some.inj hfound).symm
  | mapped calls =>
      rcases resolve_grown r calls base s with hnone | hsome
      · exact absurd (hnone.symm.trans hfound) (by simp)
      · exact Option.some.inj (hfound.symm.trans hsome)

theorem Resolution.Of.named (hroot : isAbsoluteUrl r.root = true) (h : res.Of r)
    (hfound : res.resolve base s = some name) : Named s name :=
  h.resolve_eq hfound ▸ Resolver.named_moduleName hroot base s

/-- A name that has been made is found again as it is, wherever it is written. -/
theorem Named.resolve (hname : Named s name) (h : res.Of r) (base : String) :
    res.resolve base name = some name := by
  have hwritten : isInline name = true ∨ isAbsoluteUrl name = true := by
    rw [hname.inline, hname.absolute]
    cases isInline s
    · exact .inr rfl
    · exact .inl rfl
  have hmodule : r.moduleName base name = name := by
    rw [Resolver.moduleName]
    rcases hwritten with hinline | habs
    · exact if_pos hinline
    · rw [isInline_of_isAbsoluteUrl habs, Resolver.resolveFrom_of_not_isRelative r base
        (isRelative_of_isAbsoluteUrl habs), Resolver.resolve, habs]
      rfl
  cases h with
  | network => exact congrArg some hmodule
  | mapped calls => exact if_pos (Bool.or_eq_true _ _ ▸ hwritten)

end ScriptSandbox
