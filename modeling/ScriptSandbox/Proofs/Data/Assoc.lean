import ScriptSandbox.Data.Assoc

/-!
# Maps from names

What is found in a map after a name is put into it or removed from it, and that both keep the names
rising. Looking names up asks nothing of a map; that `put` is a permutation (`perm_put`) needs the
names to rise, since it is then that a name has one place only.
-/

namespace ScriptSandbox.Assoc

variable {α : Type} {m : Assoc α} {k k' : String} {a : α}

/-! ## Looking up -/

@[simp] theorem get?_nil : get? ([] : Assoc α) k = none := rfl

theorem get?_cons (e : String × α) (m : Assoc α) :
    get? (e :: m) k = if k = e.1 then some e.2 else get? m k := by
  obtain ⟨name, b⟩ := e
  by_cases h : k = name
  · subst h
    rw [get?, List.lookup_cons_self, if_pos rfl]
  · have hbeq : (k == name) = false := beq_eq_false_iff_ne.mpr h
    rw [get?, List.lookup_cons, hbeq, if_neg h]
    rfl

theorem has_iff_mem_names : m.has k = true ↔ k ∈ m.names := by
  simp [has, names]

/-- A name is mapped exactly if looking it up finds something. -/
theorem isSome_get? : (m.get? k).isSome = m.has k := by
  induction m with
  | nil => rfl
  | cons e m ih =>
      rw [get?_cons]
      by_cases h : k = e.1
      · simp [h, has]
      · rw [if_neg h, ih]
        simp [has, Ne.symm h]

theorem has_eq_false_iff : m.has k = false ↔ m.get? k = none := by
  rw [← isSome_get?, Option.isSome_eq_false_iff, Option.isNone_iff_eq_none]

theorem mem_of_get? (h : m.get? k = some a) : (k, a) ∈ m := by
  induction m with
  | nil => cases h
  | cons e m ih =>
      rw [get?_cons] at h
      split at h
      · next hk =>
          obtain rfl := Option.some.inj h
          exact hk ▸ List.mem_cons_self ..
      · exact List.mem_cons_of_mem _ (ih h)

/-- With no name twice, looking a pair's name up finds the pair. -/
theorem get?_eq_some_iff (hm : m.names.Nodup) : m.get? k = some a ↔ (k, a) ∈ m := by
  refine ⟨mem_of_get?, fun h => ?_⟩
  induction m with
  | nil => cases h
  | cons e m ih =>
      obtain ⟨hnot, hrest⟩ := List.nodup_cons.mp hm
      rw [get?_cons]
      rcases List.mem_cons.mp h with rfl | h
      · exact if_pos rfl
      · have hne : k ≠ e.1 := by
          rintro rfl
          exact hnot (List.mem_map.mpr ⟨_, h, rfl⟩)
        rw [if_neg hne]
        exact ih hrest h

/-! ## Removing a name -/

theorem names_erase : (m.erase k).names = m.names.filter (· != k) := by
  simp [erase, names, List.filter_map, Function.comp_def]

/-- A name that is moved to the end is the last of the names. -/
theorem names_erase_append (m : Assoc α) (k : String) (a : α) :
    names (m.erase k ++ [(k, a)]) = m.names.filter (· != k) ++ [k] := by
  rw [names, List.map_append]
  exact congrArg (· ++ [k]) names_erase

theorem erase_cons (e : String × α) (m : Assoc α) :
    erase (e :: m) k = if e.1 = k then erase m k else e :: erase m k := by
  by_cases h : e.1 = k <;> simp [erase, h]

theorem get?_erase : (m.erase k).get? k' = if k' = k then none else m.get? k' := by
  induction m with
  | nil => simp [erase]
  | cons e m ih =>
      rw [erase_cons]
      by_cases he : e.1 = k
      · rw [if_pos he, ih, get?_cons, he]
        split <;> rfl
      · rw [if_neg he, get?_cons, ih, get?_cons]
        by_cases hk : k' = e.1
        · have hne : k' ≠ k := fun h => he (hk ▸ h)
          rw [if_pos hk, if_neg hne, if_pos hk]
        · rw [if_neg hk, if_neg hk]

theorem mem_erase {e : String × α} : e ∈ m.erase k ↔ e ∈ m ∧ e.1 ≠ k := by
  simp [erase]

/-- Removing a name that is not there changes nothing. -/
theorem erase_of_not_mem (h : k ∉ m.names) : m.erase k = m :=
  List.filter_eq_self.mpr fun _ he => bne_iff_ne.mpr fun hk =>
    h (hk ▸ List.mem_map_of_mem he)

/-! ## Mapping a name -/

theorem get?_put : (m.put k a).get? k' = if k' = k then some a else m.get? k' := by
  induction m with
  | nil => exact get?_cons ..
  | cons e m ih =>
      obtain ⟨name, b⟩ := e
      rw [put, alter]
      split
      · exact get?_cons ..
      · split
        · next hk =>
            obtain rfl := eq_of_beq hk
            rw [get?_cons, get?_cons]
            split <;> rfl
        · next hk =>
            have hne : k ≠ name := fun h => hk (beq_iff_eq.mpr h)
            rw [get?_cons, get?_cons]
            by_cases hk' : k' = name
            · have : k' ≠ k := fun h => hne (h ▸ hk')
              rw [if_pos hk', if_neg this, if_pos hk']
            · rw [if_neg hk', if_neg hk']
              exact ih

/-- A name that was not there comes between the others, which stay as they are. -/
theorem sublist_put (habsent : m.has k = false) : List.Sublist m (m.put k a) := by
  induction m with
  | nil => exact List.nil_sublist _
  | cons e m ih =>
      obtain ⟨name, b⟩ := e
      have hhead : name ≠ k ∧ has m k = false := by simpa [has] using habsent
      rw [put, alter]
      by_cases hlt : k < name
      · rw [if_pos hlt]
        exact List.sublist_cons_self _ _
      · rw [if_neg hlt, if_neg (by simp [hhead.1.symm])]
        exact (ih hhead.2).cons_cons _

/-! ## Names that rise -/

@[simp] theorem sorted_nil : Sorted ([] : Assoc α) := List.Pairwise.nil

theorem Sorted.nodup_names (hm : m.Sorted) : m.names.Nodup :=
  List.pairwise_map.mpr (hm.imp fun h => String.ne_of_lt h)

theorem Sorted.erase (hm : m.Sorted) : (m.erase k).Sorted :=
  List.Pairwise.filter _ hm

theorem Sorted.nodup (hm : m.Sorted) : m.Nodup :=
  hm.imp fun hlt heq => String.ne_of_lt hlt (congrArg Prod.fst heq)

/-- A pair and what is left when its name is removed. -/
theorem perm_cons_erase (hm : m.Sorted) {e : String × α} (he : e ∈ m) :
    m.Perm (e :: m.erase e.1) := by
  have hself : m.get? e.1 = some e.2 := (get?_eq_some_iff hm.nodup_names).mpr he
  refine (List.perm_ext_iff_of_nodup hm.nodup ?_).mpr fun e' => ?_
  · exact List.nodup_cons.mpr ⟨fun hmem => (mem_erase.mp hmem).2 rfl, hm.erase.nodup⟩
  · rw [List.mem_cons, mem_erase]
    constructor
    · intro he'
      by_cases hname : e'.1 = e.1
      · have hget := (get?_eq_some_iff hm.nodup_names).mpr he'
        rw [hname, hself] at hget
        exact .inl (Prod.ext hname (Option.some.inj hget).symm)
      · exact .inr ⟨he', hname⟩
    · rintro (rfl | ⟨he', -⟩)
      · exact he
      · exact he'

/-- The new pair takes the place of the old one: up to order, it comes on top of what is left when
the name is removed. -/
theorem perm_put (hm : m.Sorted) : (m.put k a).Perm ((k, a) :: m.erase k) := by
  induction m with
  | nil => exact .refl _
  | cons e m ih =>
      obtain ⟨name, b⟩ := e
      obtain ⟨hfirst, hrest⟩ := List.pairwise_cons.mp hm
      rw [put, alter]
      split
      · next hlt =>
          -- All names come after `k`, so there is nothing to remove.
          have habsent : k ∉ names ((name, b) :: m) := by
            intro hmem
            rcases List.mem_cons.mp hmem with rfl | hmem
            · exact String.lt_irrefl _ hlt
            · obtain ⟨e, he, rfl⟩ := List.mem_map.mp hmem
              exact String.lt_asymm hlt (hfirst e he)
          rw [erase_of_not_mem habsent]
      · split
        · next hk =>
            obtain rfl := eq_of_beq hk
            have habsent : k ∉ names m := by
              intro hmem
              obtain ⟨e, he, hek⟩ := List.mem_map.mp hmem
              exact String.ne_of_lt (hfirst e he) hek.symm
            rw [erase_cons, if_pos rfl, erase_of_not_mem habsent]
        · next hk =>
            have hne : name ≠ k := fun h => hk (beq_iff_eq.mpr h.symm)
            rw [erase_cons, if_neg hne]
            exact ((ih hrest).cons _).trans (.swap ..)

theorem length_erase (hm : m.Sorted) (hk : k ∈ m.names) : (m.erase k).length + 1 = m.length := by
  have hnames : (m.erase k).names = m.names.erase k := by
    rw [names_erase, hm.nodup_names.erase_eq_filter]
  have hlength : (m.erase k).names.length = m.names.length - 1 := by
    rw [hnames, List.length_erase_of_mem hk]
  have hpos := List.length_pos_of_mem hk
  simp only [names, List.length_map] at hlength hpos
  omega

/-- A name that was there already does not make a map longer. -/
theorem length_put (hm : m.Sorted) :
    (m.put k a).length = if k ∈ m.names then m.length else m.length + 1 := by
  rw [(perm_put hm).length_eq, List.length_cons]
  split
  · next hk => exact length_erase hm hk
  · next hk => rw [erase_of_not_mem hk]

theorem mem_put (hm : m.Sorted) {e : String × α} :
    e ∈ m.put k a ↔ e = (k, a) ∨ e ∈ m ∧ e.1 ≠ k := by
  rw [(perm_put hm).mem_iff, List.mem_cons, mem_erase]

theorem Sorted.put (hm : m.Sorted) : (m.put k a).Sorted := by
  induction m with
  | nil => exact List.pairwise_singleton ..
  | cons e m ih =>
      obtain ⟨name, b⟩ := e
      obtain ⟨hfirst, hrest⟩ := List.pairwise_cons.mp hm
      rw [Assoc.put, alter]
      split
      · next hlt =>
          refine List.pairwise_cons.mpr ⟨?_, hm⟩
          intro e he
          rcases List.mem_cons.mp he with rfl | he
          · exact hlt
          · exact String.lt_trans hlt (hfirst e he)
      · next hge =>
          split
          · exact List.pairwise_cons.mpr ⟨hfirst, hrest⟩
          · next hk =>
              refine List.pairwise_cons.mpr ⟨?_, ih hrest⟩
              intro e he
              rcases (mem_put hrest).mp he with rfl | ⟨he, -⟩
              · rcases String.le_total name k with hle | hle
                · exact Decidable.byContradiction fun hnot =>
                    hk (beq_iff_eq.mpr (String.le_antisymm hnot hle))
                · exact absurd (String.le_antisymm hle hge) fun h => hk (beq_iff_eq.mpr h)
              · exact hfirst e he

/-- Two names may be mapped in either order. -/
theorem put_comm (hm : m.Sorted) {b : α} (hne : k ≠ k') :
    (m.put k a).put k' b = (m.put k' b).put k a := by
  have hperm {k k' : String} (a b : α) (hne : k ≠ k') :
      ((m.put k a).put k' b).Perm ((k', b) :: (k, a) :: (m.erase k).erase k') := by
    refine (perm_put hm.put).trans (.cons _ ?_)
    have herase := (perm_put (k := k) (a := a) hm).filter fun e : String × α => e.1 != k'
    rwa [List.filter_cons, if_pos (bne_iff_ne.mpr hne)] at herase
  have herase : (m.erase k).erase k' = (m.erase k').erase k := by
    simp only [Assoc.erase, List.filter_filter, Bool.and_comm]
  have hswap := (hperm b a hne.symm).trans (.swap ..)
  rw [← herase] at hswap
  exact ((hperm a b hne).trans hswap.symm).eq_of_pairwise
    (fun e e' _ _ hlt hlt' => absurd hlt' (String.lt_asymm hlt)) hm.put.put hm.put.put

/-! ## Maps from pairs -/

/-- A name behind all others goes to the end. -/
theorem put_of_lt (h : ∀ e ∈ m, e.1 < k) : m.put k a = m ++ [(k, a)] := by
  induction m with
  | nil => rfl
  | cons e m ih =>
      obtain ⟨name, b⟩ := e
      have hlt : name < k := h _ (List.mem_cons_self ..)
      have hne : (k == name) = false := beq_eq_false_iff_ne.mpr (String.ne_of_lt hlt).symm
      rw [put, alter, if_neg (String.lt_asymm hlt), hne, if_neg Bool.false_ne_true]
      exact congrArg _ (ih fun e he => h e (List.mem_cons_of_mem _ he))

/-- Putting pairs whose names rise, behind those of a map, appends them. -/
theorem foldl_put_of_sorted {pairs : List (String × α)} (h : Sorted (m ++ pairs)) :
    pairs.foldl (fun m e => m.put e.1 e.2) m = m ++ pairs := by
  induction pairs generalizing m with
  | nil => simp
  | cons e pairs ih =>
      have hlast : ∀ e' ∈ m, e'.1 < e.1 := fun e' he' =>
        (List.pairwise_append.mp h).2.2 e' he' e (List.mem_cons_self ..)
      rw [List.foldl_cons, put_of_lt hlast, ih (by simpa using h), List.append_assoc]
      rfl

/-- The map that its own pairs describe. -/
theorem ofPairs_of_sorted (hm : m.Sorted) : ofPairs m = m := foldl_put_of_sorted (m := []) hm

theorem sorted_ofPairs (pairs : List (String × α)) : (ofPairs pairs).Sorted := by
  have hfoldl : ∀ m : Assoc α, m.Sorted →
      (pairs.foldl (fun m e => m.put e.1 e.2) m).Sorted := by
    induction pairs with
    | nil => exact fun _ hm => hm
    | cons e pairs ih => exact fun _ hm => ih _ hm.put
  exact hfoldl [] sorted_nil

/-- Two pairs with different names may come in either order. -/
theorem ofPairs_swap (ps qs : List (String × α)) {p q : String × α} (hne : p.1 ≠ q.1) :
    ofPairs (ps ++ p :: q :: qs) = ofPairs (ps ++ q :: p :: qs) := by
  have hcomm := put_comm (a := p.2) (b := q.2) (sorted_ofPairs ps) hne
  simp only [ofPairs, List.foldl_append, List.foldl_cons] at hcomm ⊢
  rw [hcomm]

theorem mem_of_mem_ofPairs {pairs : List (String × α)} {e : String × α} (he : e ∈ ofPairs pairs) :
    e ∈ pairs := by
  have hfoldl : ∀ m : Assoc α, m.Sorted → e ∈ pairs.foldl (fun m e => m.put e.1 e.2) m →
      e ∈ m ∨ e ∈ pairs := by
    clear he
    induction pairs with
    | nil => exact fun _ _ hmem => .inl hmem
    | cons first pairs ih =>
        intro m hm hmem
        rcases ih _ hm.put hmem with hput | hpairs
        · rcases (mem_put hm).mp hput with rfl | ⟨hold, -⟩
          · exact .inr (List.mem_cons_self ..)
          · exact .inl hold
        · exact .inr (List.mem_cons_of_mem _ hpairs)
  exact (hfoldl [] sorted_nil he).resolve_left List.not_mem_nil

/-! ## Changing the values -/

def mapValues {β : Type} (f : α → β) (m : Assoc α) : Assoc β := m.map fun e => (e.1, f e.2)

section MapValues

variable {β : Type} (f : α → β)

theorem names_mapValues (m : Assoc α) : (m.mapValues f).names = m.names := by
  simp [names, mapValues]

theorem length_mapValues (m : Assoc α) : (m.mapValues f).length = m.length := List.length_map ..

theorem has_mapValues (m : Assoc α) : (m.mapValues f).has k = m.has k := by
  simp [has, mapValues, Function.comp_def]

theorem erase_mapValues (m : Assoc α) : (m.mapValues f).erase k = (m.erase k).mapValues f := by
  simp [erase, mapValues, List.filter_map, Function.comp_def]

theorem put_mapValues (m : Assoc α) : (m.mapValues f).put k (f a) = (m.put k a).mapValues f := by
  induction m with
  | nil => rfl
  | cons e m ih =>
      simp only [mapValues, List.map_cons, put, alter] at ih ⊢
      rw [ih]
      split
      · rfl
      · split <;> rfl

theorem sorted_mapValues {m : Assoc α} : (m.mapValues f).Sorted ↔ m.Sorted := List.pairwise_map

end MapValues

end ScriptSandbox.Assoc
