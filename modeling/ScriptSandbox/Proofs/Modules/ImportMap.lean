import ScriptSandbox.Modules.ImportMap
import ScriptSandbox.Proofs.Data.Assoc
import ScriptSandbox.Proofs.Modules.Specifier

/-!
# What is in an import map

Whatever is added to a map, a specifier or what a source names, is a list of entries, and each of
them maps a name to the URL of that name under the root. So a map that has grown from the empty one
by one resolver is known entirely (`get?_grown`), and looking a specifier up, if it finds anything,
finds the URL of the specifier under the root: a prefix and the rest come together again
(`lookup_grown`).
-/

namespace ScriptSandbox

def Resolver.entry (r : Resolver) (name : String) : String × String := (name, r.under name)

namespace ImportMap

variable {m : ImportMap} {r : Resolver} {s k url : String}

/-! ## Growth -/

/-- Adds entries one after another; tells whether the map grew. -/
def insertAll (m : ImportMap) : List (String × String) → Bool × ImportMap
  | [] => (false, m)
  | (k, url) :: es =>
      let (grew, m) := m.insert k url
      let (grew₁, m) := m.insertAll es
      (grew || grew₁, m)

theorem insertAll_cons (m : ImportMap) (e : String × String) (es : List (String × String)) :
    m.insertAll (e :: es) = ((m.insert e.1 e.2).1 || ((m.insert e.1 e.2).2.insertAll es).1,
      ((m.insert e.1 e.2).2.insertAll es).2) := rfl

theorem insertAll_append (m : ImportMap) (es es' : List (String × String)) :
    m.insertAll (es ++ es') = ((m.insertAll es).1 || ((m.insertAll es).2.insertAll es').1,
      ((m.insertAll es).2.insertAll es').2) := by
  induction es generalizing m with
  | nil => rfl
  | cons e es ih => rw [List.cons_append, insertAll_cons, insertAll_cons, ih, Bool.or_assoc]

/-- The names of the entries that a specifier needs. -/
def needed (s : String) : List String :=
  if Specifier.isBare s then
    s :: ((Specifier.packageBase s).map fun b => [b ++ "/", b]).getD []
  else []

theorem addSpecifier_eq (m : ImportMap) (s : String) (r : Resolver) :
    m.addSpecifier s r = m.insertAll ((needed s).map r.entry) := by
  rw [addSpecifier, needed]
  cases hbare : Specifier.isBare s with
  | false => rfl
  | true =>
      rw [Resolver.resolve_bare r hbare]
      cases hbase : Specifier.packageBase s with
      | none => simp [insertAll, Resolver.entry]
      | some b =>
          have hb := (Specifier.packageBase_spec hbase).2.1
          have hslash : r.under b ++ "/" = r.under (b ++ "/") := String.append_assoc ..
          simp [Resolver.resolve_bare r hb, hslash, insertAll, Resolver.entry, Bool.or_assoc]

theorem addSpecifiers_eq (m : ImportMap) (r : Resolver) (ss : List String) :
    m.addSpecifiers r ss = m.insertAll ((ss.flatMap needed).map r.entry) := by
  induction ss generalizing m with
  | nil => rfl
  | cons s ss ih =>
      rw [List.flatMap_cons, List.map_append, insertAll_append, ← addSpecifier_eq, ← ih]
      rfl

/-- A call that lets a map grow. -/
inductive Growth where
  | specifier (s : String)
  | source (text : String)
  deriving DecidableEq, Repr

def Growth.specifiers : Growth → List String
  | .specifier s => [s]
  | .source text => Scan.scanImports text

/-- One call. -/
def grow (m : ImportMap) (r : Resolver) : Growth → ImportMap
  | .specifier s => (m.addSpecifier s r).2
  | .source text => (m.mergeFromSource text r).2

/-- The map that some calls with one resolver make of the empty one. -/
def grown (r : Resolver) (calls : List Growth) : ImportMap := calls.foldl (·.grow r) {}

/-- The names of the entries that some calls need. -/
def neededBy (calls : List Growth) : List String :=
  calls.flatMap fun call => call.specifiers.flatMap needed

theorem neededBy_cons (call : Growth) (calls : List Growth) :
    neededBy (call :: calls) = call.specifiers.flatMap needed ++ neededBy calls :=
  List.flatMap_cons

theorem mem_neededBy {calls : List Growth} :
    k ∈ neededBy calls ↔ ∃ call ∈ calls, ∃ s ∈ call.specifiers, k ∈ needed s := by
  simp [neededBy]

theorem grow_eq (m : ImportMap) (r : Resolver) (call : Growth) :
    m.grow r call = (m.insertAll ((call.specifiers.flatMap needed).map r.entry)).2 := by
  cases call with
  | specifier s =>
      rw [grow, addSpecifier_eq, Growth.specifiers, List.flatMap_singleton]
  | source text => rw [grow, mergeFromSource, addSpecifiers_eq, Growth.specifiers]

/-- All that calls do is to add entries. -/
theorem foldl_grow_eq (m : ImportMap) (r : Resolver) (calls : List Growth) :
    calls.foldl (·.grow r) m = (m.insertAll ((neededBy calls).map r.entry)).2 := by
  induction calls generalizing m with
  | nil => rfl
  | cons call calls ih =>
      rw [List.foldl_cons, ih, grow_eq, neededBy_cons, List.map_append, insertAll_append]

/-! ## What is there -/

theorem insert_sorted (hm : m.imports.Sorted) : (m.insert k url).2.imports.Sorted := by
  rw [insert]
  split
  · exact hm
  · exact hm.put

theorem get?_insert (m : ImportMap) (k url s : String) :
    (m.insert k url).2.get? s = (m.get? s).or (if s = k then some url else none) := by
  rw [insert]
  split
  · next hhas =>
      rw [← Assoc.isSome_get?, Option.isSome_iff_exists] at hhas
      obtain ⟨old, hold⟩ := hhas
      split
      · next hs =>
          subst hs
          rw [get?, hold]
          rfl
      · rw [Option.or_none]
  · next hhas =>
      have hnone := Assoc.has_eq_false_iff.mp (Bool.eq_false_iff.mpr hhas)
      rw [get?, Assoc.get?_put, get?]
      split
      · next hs =>
          subst hs
          rw [hnone]
          rfl
      · rw [Option.or_none]

theorem insertAll_sorted (hm : m.imports.Sorted) (es : List (String × String)) :
    (m.insertAll es).2.imports.Sorted := by
  induction es generalizing m with
  | nil => exact hm
  | cons e es ih => exact ih (insert_sorted hm)

/-- An entry that was there stays; the first entry of a new name counts. -/
theorem get?_insertAll (m : ImportMap) (es : List (String × String)) (s : String) :
    (m.insertAll es).2.get? s = (m.get? s).or (Assoc.get? es s) := by
  induction es generalizing m with
  | nil => rw [Assoc.get?_nil, Option.or_none]; rfl
  | cons e es ih =>
      rw [insertAll_cons, ih, get?_insert, Assoc.get?_cons, Option.or_assoc]
      split <;> rfl

theorem get?_entries (r : Resolver) (names : List String) (s : String) :
    Assoc.get? (names.map r.entry) s = if s ∈ names then some (r.under s) else none := by
  induction names with
  | nil => rfl
  | cons name names ih =>
      rw [List.map_cons, Assoc.get?_cons, ih]
      by_cases hs : s = name
      · simp [hs, Resolver.entry]
      · simp [hs, Resolver.entry]

/-- A map is told to have grown exactly if it is another one now. -/
theorem insertAll_grew_iff (m : ImportMap) (es : List (String × String)) :
    (m.insertAll es).1 = true ↔ (m.insertAll es).2 ≠ m := by
  induction es generalizing m with
  | nil => simp [insertAll]
  | cons e es ih =>
      rw [insertAll_cons]
      cases hhas : m.imports.has e.1 with
      | true =>
          have hsame : m.insert e.1 e.2 = (false, m) := if_pos hhas
          rw [hsame]
          exact ih m
      | false =>
          have hgrew : (m.insert e.1 e.2).1 = true := by rw [insert, hhas]; rfl
          refine ⟨fun _ heq => ?_, fun _ => Bool.or_eq_true_iff.mpr (.inl hgrew)⟩
          -- The entry that was not there is there to the end.
          have hnow := congrArg (fun m => ImportMap.get? m e.1) heq
          simp only [get?_insertAll, get?_insert, if_true] at hnow
          rw [show m.get? e.1 = none from Assoc.has_eq_false_iff.mp hhas] at hnow
          cases hnow

theorem mergeFromSource_grew_iff (m : ImportMap) (source : String) (r : Resolver) :
    (m.mergeFromSource source r).1 = true ↔ (m.mergeFromSource source r).2 ≠ m := by
  rw [mergeFromSource, addSpecifiers_eq]
  exact insertAll_grew_iff m _

/-- What a source names by a bare specifier is in the map once the source has been merged. -/
theorem get?_mergeFromSource (m : ImportMap) {source : String} (r : Resolver)
    (hs : s ∈ Scan.scanImports source) (hbare : Specifier.isBare s = true) :
    ((m.mergeFromSource source r).2.get? s).isSome = true := by
  have hneeded : s ∈ (Scan.scanImports source).flatMap needed := by
    refine List.mem_flatMap.mpr ⟨s, hs, ?_⟩
    rw [needed, if_pos hbare]
    exact List.mem_cons_self ..
  rw [mergeFromSource, addSpecifiers_eq, get?_insertAll, get?_entries, if_pos hneeded]
  cases m.get? s <;> rfl

/-- The map has each name that is needed, with its URL under the root, and nothing else. -/
theorem get?_grown (r : Resolver) (calls : List Growth) (s : String) :
    (grown r calls).get? s = if s ∈ neededBy calls then some (r.under s) else none := by
  rw [grown, foldl_grow_eq, get?_insertAll, get?_entries]
  rfl

theorem mem_grown {calls : List Growth} {e : String × String} :
    e ∈ (grown r calls).imports ↔ e.1 ∈ neededBy calls ∧ e.2 = r.under e.1 := by
  have hsorted : (grown r calls).imports.Sorted := by
    rw [grown, foldl_grow_eq]
    exact insertAll_sorted Assoc.sorted_nil _
  have hget : (grown r calls).get? e.1 = some e.2 ↔ e ∈ (grown r calls).imports :=
    Assoc.get?_eq_some_iff hsorted.nodup_names
  rw [← hget, get?_grown]
  split
  · next hs => simp [hs, eq_comm]
  · next hs => simp [hs]

/-! ## Looking up -/

theorem longest_mem {es : List (String × String)} {e : String × String} (h : longest es = some e) :
    e ∈ es := by
  induction es generalizing e with
  | nil => cases h
  | cons first es ih =>
      rw [longest] at h
      split at h
      · obtain rfl := Option.some.inj h
        exact List.mem_cons_self ..
      · next e' he' =>
          split at h
          · obtain rfl := Option.some.inj h
            exact List.mem_cons_self ..
          · obtain rfl := Option.some.inj h
            exact List.mem_cons_of_mem _ (ih he')

theorem longest_eq_none_iff {es : List (String × String)} : longest es = none ↔ es = [] := by
  cases es with
  | nil => exact ⟨fun _ => rfl, fun _ => rfl⟩
  | cons first es =>
      rw [longest]
      split
      · simp
      · split <;> simp

/-- A name and what is left of a specifier that begins with it are the specifier. -/
theorem append_drop_of_covers (h : covers k s = true) :
    k ++ String.ofList (s.toList.drop k.length) = s := by
  obtain ⟨rest, hrest⟩ := Specifier.startsWith_iff.mp (Bool.and_eq_true_iff.mp h).2
  rw [← String.toList_inj, String.toList_append, String.toList_ofList, ← hrest,
    ← String.length_toList, List.drop_left]

/-- Nothing is found exactly if there is neither an entry of that name nor one that covers it. -/
theorem lookup_eq_none_iff :
    m.lookup s = none ↔ m.get? s = none ∧ ∀ e ∈ m.imports, covers e.1 s = false := by
  rw [lookup]
  cases m.get? s with
  | some url => simp
  | none => simp [longest_eq_none_iff, List.filter_eq_nil_iff]

/-- What is found is the URL of the specifier under the root. -/
theorem lookup_grown (r : Resolver) (calls : List Growth) (s : String) :
    (grown r calls).lookup s = none ∨ (grown r calls).lookup s = some (r.under s) := by
  have hget := get?_grown r calls s
  rw [lookup]
  cases hentry : (grown r calls).get? s with
  | some url =>
      rw [hentry] at hget
      split at hget
      · exact .inr hget
      · cases hget
  | none =>
      cases hlong : longest ((grown r calls).imports.filter fun e => covers e.1 s) with
      | none => exact .inl rfl
      | some e =>
          obtain ⟨hmem, hcovers⟩ := List.mem_filter.mp (longest_mem hlong)
          have hurl := (mem_grown.mp hmem).2
          have hjoin := append_drop_of_covers hcovers
          refine .inr (congrArg some ?_)
          calc e.2 ++ String.ofList (s.toList.drop e.1.length)
              = r.root ++ "/" ++ (e.1 ++ String.ofList (s.toList.drop e.1.length)) := by
                rw [hurl, Resolver.under, String.append_assoc]
            _ = r.under s := by rw [hjoin, Resolver.under]

end ImportMap

end ScriptSandbox
