import ScriptSandbox.Proofs.Modules.ImportMap

/-!
# How an import map grows

A call that lets a map grow never touches an entry that is there, tells exactly whether it added
one, and does nothing the second time. All of this holds of any map (`insertAll_sublist`,
`insertAll_again`), whatever URLs stand in it. The last part of the main result `growth_exact` needs
more: what calls with one resolver make of the empty map is a matter of which calls there were,
because all who write a name write the same URL (`mem_grown`) and a map keeps its names in order.
-/

namespace ScriptSandbox.ImportMap

variable {m : ImportMap} {r : Resolver}

/-! ## What an insertion keeps -/

theorem insert_sublist (m : ImportMap) (k url : String) :
    m.imports.Sublist (m.insert k url).2.imports := by
  rw [insert]
  cases hhas : m.imports.has k with
  | true => exact List.Sublist.refl _
  | false => exact Assoc.sublist_put hhas

/-- No entry is lost, moved or replaced. -/
theorem insertAll_sublist (m : ImportMap) (es : List (String × String)) :
    m.imports.Sublist (m.insertAll es).2.imports := by
  induction es generalizing m with
  | nil => exact List.Sublist.refl _
  | cons e es ih =>
      rw [insertAll_cons]
      exact (insert_sublist m e.1 e.2).trans (ih _)

/-- Since entries only come to those that are there, a map is another one if it is longer. -/
theorem size_lt_insertAll_iff (m : ImportMap) (es : List (String × String)) :
    m.size < (m.insertAll es).2.size ↔ (m.insertAll es).2 ≠ m := by
  have hkept := insertAll_sublist m es
  constructor
  · intro hlt heq
    rw [heq] at hlt
    exact Nat.lt_irrefl _ hlt
  · intro hne
    refine Nat.lt_of_le_of_ne hkept.length_le fun hsize => hne ?_
    have himports : m.imports = (m.insertAll es).2.imports := hkept.eq_of_length hsize
    cases hmore : (m.insertAll es).2 with
    | mk imports =>
        rw [hmore] at himports
        cases m
        exact congrArg ImportMap.mk himports.symm

/-! ## The second time -/

theorem insertAll_of_present {es : List (String × String)}
    (h : ∀ e ∈ es, (m.get? e.1).isSome = true) : m.insertAll es = (false, m) := by
  induction es with
  | nil => rfl
  | cons e es ih =>
      obtain ⟨hfirst, hrest⟩ := List.forall_mem_cons.mp h
      have hhas : m.imports.has e.1 = true := Assoc.isSome_get?.symm.trans hfirst
      have hsame : m.insert e.1 e.2 = (false, m) := if_pos hhas
      rw [insertAll_cons, hsame]
      exact ih hrest

theorem isSome_get?_of_mem {es : Assoc String} {e : String × String} (he : e ∈ es) :
    (es.get? e.1).isSome = true := by
  rw [Assoc.isSome_get?, Assoc.has_iff_mem_names]
  exact List.mem_map_of_mem he

/-- Entries that have been added are all there. -/
theorem insertAll_again (m : ImportMap) (es : List (String × String)) :
    (m.insertAll es).2.insertAll es = (false, (m.insertAll es).2) := by
  apply insertAll_of_present
  intro e he
  obtain ⟨url, hurl⟩ := Option.isSome_iff_exists.mp (isSome_get?_of_mem he)
  rw [get?_insertAll, hurl]
  cases m.get? e.1 <;> rfl

/-! ## Calls -/

/-- One call, and whether it says that the map grew. -/
def growing (m : ImportMap) (r : Resolver) : Growth → Bool × ImportMap
  | .specifier s => m.addSpecifier s r
  | .source text => m.mergeFromSource text r

theorem growing_eq (m : ImportMap) (r : Resolver) (call : Growth) :
    m.growing r call = m.insertAll ((call.specifiers.flatMap needed).map r.entry) := by
  cases call with
  | specifier s =>
      rw [growing, addSpecifier_eq, Growth.specifiers, List.flatMap_singleton]
  | source text =>
      rw [growing, mergeFromSource, addSpecifiers_eq, Growth.specifiers]

theorem sorted_grown (r : Resolver) (calls : List Growth) : (grown r calls).imports.Sorted := by
  rw [grown, foldl_grow_eq]
  exact insertAll_sorted Assoc.sorted_nil _

/-- The order of calls does not matter, nor how often they are made. -/
theorem grown_congr {calls calls' : List Growth} (h : ∀ call, call ∈ calls ↔ call ∈ calls') :
    grown r calls = grown r calls' := by
  have hneeded (k : String) : k ∈ neededBy calls ↔ k ∈ neededBy calls' := by
    simp only [mem_neededBy, h]
  have hmem (e : String × String) :
      e ∈ (grown r calls).imports ↔ e ∈ (grown r calls').imports := by
    rw [mem_grown, mem_grown, hneeded]
  have hsorted := sorted_grown r calls
  have hsorted' := sorted_grown r calls'
  have hnodup {es : Assoc String} (hes : es.Sorted) : es.Nodup :=
    hes.imp fun hlt heq => String.ne_of_lt hlt (congrArg Prod.fst heq)
  have hperm : (grown r calls).imports.Perm (grown r calls').imports :=
    (List.perm_ext_iff_of_nodup (hnodup hsorted) (hnodup hsorted')).mpr hmem
  have himports : (grown r calls).imports = (grown r calls').imports :=
    hperm.eq_of_pairwise (fun e e' _ _ hlt hlt' => absurd hlt' (String.lt_asymm hlt)) hsorted
      hsorted'
  exact congrArg ImportMap.mk himports

/-- A call keeps every entry with its URL, says that the map grew exactly if it has more entries
now, and does nothing when it is made again. What calls with one resolver make of the empty map
depends only on which calls they are. -/
theorem growth_exact (m : ImportMap) (r : Resolver) (call : Growth) :
    (∀ k url, m.get? k = some url → (m.growing r call).2.get? k = some url) ∧
      ((m.growing r call).1 = true ↔ m.size < (m.growing r call).2.size) ∧
      (m.growing r call).2.growing r call = (false, (m.growing r call).2) ∧
      ∀ calls calls' : List Growth, (∀ c, c ∈ calls ↔ c ∈ calls') →
        grown r calls = grown r calls' := by
  rw [growing_eq, growing_eq]
  refine ⟨?_, ?_, insertAll_again m _, fun calls calls' h => grown_congr h⟩
  · intro k url hurl
    rw [get?_insertAll, hurl]
    rfl
  · rw [insertAll_grew_iff, size_lt_insertAll_iff]

/-- A URL that was put in by hand stays, and what the specifier still needs is added beside it. -/
example :
    let map : ImportMap := (({} : ImportMap).insert "pkg" "https://mirror.test/pkg").2
    (map.growing ⟨"https://cdn.test"⟩ (.specifier "pkg")).1 = true ∧
      (map.growing ⟨"https://cdn.test"⟩ (.specifier "pkg")).2.imports =
        [("pkg", "https://mirror.test/pkg"), ("pkg/", "https://cdn.test/pkg/")] := by
  decide +kernel

end ScriptSandbox.ImportMap
