import ScriptSandbox.Machine.Link
import ScriptSandbox.Proofs.Modules.ImportMap

/-!
# A realm and the interpreter find the same modules

The interpreter asks the resolver, a realm asks its import map about bare specifiers and the
resolver about the others. As the map has every name under the root, the two never disagree: a realm
either finds what the interpreter finds or, for a bare specifier that nothing in the map stands for,
finds nothing. The main result is `realm_agrees`.
-/

namespace ScriptSandbox

open Specifier ImportMap

variable {m : ImportMap} {r : Resolver} {calls : List Growth} {base name s b : String}

/-- What stands in the way of a specifier in a realm: it is bare, not in memory, and the map has
neither its name nor one that covers it. -/
theorem ImportMap.resolve_eq_none_iff :
    m.resolve r base name = none ↔
      isBare name = true ∧ isInline name = false ∧ m.get? name = none ∧
        ∀ e ∈ m.imports, covers e.1 name = false := by
  rw [ImportMap.resolve, ← lookup_eq_none_iff]
  by_cases hwritten : (isInline name || isAbsoluteUrl name) = true
  · rw [if_pos hwritten]
    refine ⟨fun h => (nomatch h), fun ⟨hbare, hinline, _⟩ => ?_⟩
    have habs := (isBare_iff.mp hbare).2.2
    rw [hinline, habs] at hwritten
    cases hwritten
  · rw [if_neg hwritten]
    have hinline : isInline name = false := by
      rw [Bool.or_eq_true, not_or] at hwritten
      exact Bool.eq_false_iff.mpr hwritten.1
    split
    · next hbare => simp [hbare, hinline]
    · next hbare => simp [hbare]

/-- A realm that finds a module finds the one that the resolver names. -/
theorem ImportMap.resolve_grown (r : Resolver) (calls : List Growth) (base name : String) :
    (grown r calls).resolve r base name = none ∨
      (grown r calls).resolve r base name = some (r.moduleName base name) := by
  rw [ImportMap.resolve, Resolver.moduleName]
  cases hinline : isInline name with
  | true => exact .inr rfl
  | false =>
      cases habs : isAbsoluteUrl name with
      | true =>
          rw [Resolver.resolveFrom_of_not_isRelative r base (isRelative_of_isAbsoluteUrl habs),
            Resolver.resolve, habs]
          exact .inr rfl
      | false =>
          cases hbare : isBare name with
          | true =>
              rw [Resolver.resolveFrom_bare r base hbare]
              exact lookup_grown r calls name
          | false => exact .inr rfl

/-! ## What a map stands for -/

theorem ImportMap.mem_needed {k : String} :
    k ∈ needed s ↔
      isBare s = true ∧ (k = s ∨ ∃ b, packageBase s = some b ∧ (k = b ++ "/" ∨ k = b)) := by
  rw [needed]
  split
  · next hbare => cases packageBase s <;> simp [hbare]
  · next hbare => simp [hbare]

/-- An entry of a package's name with a slash covers every path into the package. -/
theorem ImportMap.covers_of_startsWith (h : startsWith name (b ++ "/") = true) :
    covers (b ++ "/") name = true := by
  rw [covers, h]
  simp

/-- If a specifier has been added, what it needs is found, and so is all of its package. -/
theorem ImportMap.resolve_isSome (hneeded : ∀ k ∈ needed s, k ∈ neededBy calls)
    (hname : name = s ∨ ∃ b, packageBase name = some b ∧ packageBase s = some b) :
    ((grown r calls).resolve r base name).isSome = true := by
  refine Option.isSome_iff_ne_none.mpr fun hnone => ?_
  obtain ⟨hbare, -, hget, hcovers⟩ := resolve_eq_none_iff.mp hnone
  have habsent : name ∉ neededBy calls := by
    intro hmem
    rw [get?_grown, if_pos hmem] at hget
    cases hget
  rcases hname with rfl | ⟨b, hname, hs⟩
  · exact habsent (hneeded name (mem_needed.mpr ⟨hbare, .inl rfl⟩))
  · have hbase {k : String} (hk : k = b ++ "/" ∨ k = b) : k ∈ neededBy calls :=
      hneeded k (mem_needed.mpr ⟨(packageBase_spec hs).1, .inr ⟨b, hs, hk⟩⟩)
    rcases (packageBase_spec hname).2.2 with rfl | hpath
    · exact habsent (hbase (.inr rfl))
    · have hentry : r.entry (b ++ "/") ∈ (grown r calls).imports :=
        mem_grown.mpr ⟨hbase (.inl rfl), rfl⟩
      exact Bool.eq_false_iff.mp (hcovers _ hentry) (covers_of_startsWith hpath)

/-- What a realm has found it finds again when the map has grown. -/
theorem ImportMap.resolve_isSome_append (more : List Growth)
    (h : ((grown r calls).resolve r base name).isSome = true) :
    ((grown r (calls ++ more)).resolve r base name).isSome = true := by
  rw [Option.isSome_iff_ne_none] at h ⊢
  intro hnone
  obtain ⟨hbare, hinline, hget, hcovers⟩ := resolve_eq_none_iff.mp hnone
  have hmore {k : String} (hk : k ∈ neededBy calls) : k ∈ neededBy (calls ++ more) := by
    rw [neededBy, List.flatMap_append]
    exact List.mem_append_left _ hk
  refine h (resolve_eq_none_iff.mpr ⟨hbare, hinline, ?_, fun e he => ?_⟩)
  · rw [get?_grown] at hget ⊢
    refine if_neg fun hmem => ?_
    rw [if_pos (hmore hmem)] at hget
    cases hget
  · obtain ⟨hmem, hurl⟩ := mem_grown.mp he
    exact hcovers e (mem_grown.mpr ⟨hmore hmem, hurl⟩)

/-- A realm whose map has grown from the empty one by its own resolver finds the module that the
interpreter finds, or none. It finds none exactly for a bare specifier, not one in memory, of which
the map has neither the name nor one that covers it; so it finds whatever a source that has been
merged names, and all of those packages; and what it finds once, it finds for good. -/
theorem realm_agrees (r : Resolver) (calls : List Growth) (base name : String) :
    ((Resolution.mapped (grown r calls) r).resolve base name = none ∨
        (Resolution.mapped (grown r calls) r).resolve base name =
          (Resolution.network r).resolve base name) ∧
      ((Resolution.mapped (grown r calls) r).resolve base name = none ↔
        isBare name = true ∧ isInline name = false ∧ (grown r calls).get? name = none ∧
          ∀ e ∈ (grown r calls).imports, covers e.1 name = false) ∧
      (∀ text, .source text ∈ calls → ∀ s ∈ Scan.scanImports text,
        (name = s ∨ ∃ b, packageBase name = some b ∧ packageBase s = some b) →
          ((Resolution.mapped (grown r calls) r).resolve base name).isSome = true) ∧
      ∀ more, ((Resolution.mapped (grown r calls) r).resolve base name).isSome = true →
        (Resolution.mapped (grown r (calls ++ more)) r).resolve base name =
          (Resolution.mapped (grown r calls) r).resolve base name := by
  refine ⟨resolve_grown r calls base name, resolve_eq_none_iff, ?_, ?_⟩
  · intro text htext s hs hname
    exact resolve_isSome (fun k hk => mem_neededBy.mpr ⟨.source text, htext, s, hs, hk⟩) hname
  · intro more hsome
    have hlater := resolve_isSome_append more hsome
    rcases resolve_grown r calls base name with hnone | hfound
    · rw [Resolution.resolve, hnone] at hsome
      cases hsome
    · rcases resolve_grown r (calls ++ more) base name with hnone | hfound'
      · rw [hnone] at hlater
        cases hlater
      · rw [Resolution.resolve, Resolution.resolve, hfound, hfound']

/-- The path of one specifier makes room for the other paths into its package, and for no other
package. -/
example :
    let map := grown ⟨"https://cdn.test"⟩ [.specifier "@scope/pkg@2/sub"]
    map.resolve ⟨"https://cdn.test"⟩ "" "@scope/pkg@2/more" =
        some "https://cdn.test/@scope/pkg@2/more" ∧
      map.resolve ⟨"https://cdn.test"⟩ "" "@scope/pkg" = none := by
  decide +kernel

end ScriptSandbox
