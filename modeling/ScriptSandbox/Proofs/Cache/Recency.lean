import ScriptSandbox.Cache.CodeCache
import ScriptSandbox.Proofs.Data.Assoc

/-!
# The order in which stamps were given

A cache keeps its stamps in the order of the names. As long as stamps rise strictly there is one
other order, that of the stamps (`ByRecency`), and what a cache does to its stamps is easily said of
it: a stamp that is new goes to the end, a name that is removed drops out, and the name used longest
ago is the first.
-/

namespace ScriptSandbox

/-- A list has the pairs of a map of stamps, with the stamps rising. -/
structure ByRecency (m order : Assoc Nat) : Prop where
  perm : order.Perm m
  rising : order.Pairwise fun a b => a.2 < b.2

namespace ByRecency

variable {m order : Assoc Nat} {name : String} {stamp : Nat}

theorem nil : ByRecency [] [] := ⟨.refl _, .nil⟩

theorem names_perm (h : ByRecency m order) : order.names.Perm m.names := h.perm.map _

theorem nodup_names (h : ByRecency m order) (hm : m.Sorted) : order.names.Nodup :=
  h.names_perm.nodup_iff.mpr hm.nodup_names

theorem erase (h : ByRecency m order) (name : String) :
    ByRecency (m.erase name) (order.erase name) :=
  ⟨h.perm.filter _, h.rising.filter _⟩

/-- A stamp later than all others goes to the end. -/
theorem put (h : ByRecency m order) (hm : m.Sorted) (hlater : ∀ e ∈ m, e.2 < stamp) :
    ByRecency (m.put name stamp) (order.erase name ++ [(name, stamp)]) := by
  refine ⟨?_, ?_⟩
  · have hput := (Assoc.perm_put (k := name) (a := stamp) hm).symm
    have hlast := List.perm_append_singleton (name, stamp) (order.erase name)
    exact (hlast.trans ((h.erase name).perm.cons _)).trans hput
  · refine List.pairwise_append.mpr ⟨(h.erase name).rising, List.pairwise_singleton .., ?_⟩
    intro a ha b hb
    obtain rfl := List.mem_singleton.mp hb
    exact hlater a (h.perm.mem_iff.mp (Assoc.mem_erase.mp ha).1)

/-- No two pairs have the same stamp. -/
theorem eq_of_stamp_eq (h : ByRecency m order) {a b : String × Nat} (ha : a ∈ order)
    (hb : b ∈ order) (hstamp : a.2 = b.2) : a = b :=
  List.Pairwise.forall_of_forall_of_flip (R := fun x y => x.2 = y.2 → x = y) (fun _ _ _ => rfl)
    (h.rising.imp fun hlt heq => absurd heq (Nat.ne_of_lt hlt))
    (h.rising.imp fun hlt heq => absurd heq (Nat.ne_of_gt hlt)) ha hb hstamp

/-- There is one such list at most: it is what sorting by stamps gives. -/
theorem mergeSort_eq (h : ByRecency m order) :
    m.mergeSort (fun a b => decide (a.2 ≤ b.2)) = order := by
  have hsorted : (m.mergeSort fun a b => decide (a.2 ≤ b.2)).Pairwise fun a b => a.2 ≤ b.2 := by
    have hpairwise : (m.mergeSort fun a b => decide (a.2 ≤ b.2)).Pairwise fun a b =>
        decide (a.2 ≤ b.2) = true :=
      List.pairwise_mergeSort (by simp only [decide_eq_true_eq]; omega)
        (by simp only [Bool.or_eq_true, decide_eq_true_eq]; omega) m
    exact hpairwise.imp of_decide_eq_true
  have hperm := (List.mergeSort_perm m fun a b => decide (a.2 ≤ b.2)).trans h.perm.symm
  refine List.Perm.eq_of_pairwise ?_ hsorted (h.rising.imp Nat.le_of_lt) hperm
  intro a b ha hb hab hba
  exact h.eq_of_stamp_eq (hperm.mem_iff.mp ha) hb (Nat.le_antisymm hab hba)

end ByRecency

namespace CodeCache

variable {σ : Type}

theorem keysByRecency_eq {c : CodeCache σ} {order : Assoc Nat} (h : ByRecency c.stamps order) :
    c.keysByRecency = order.names :=
  congrArg Assoc.names h.mergeSort_eq

theorem oldest?_eq_none_iff {m : Assoc Nat} : oldest? m = none ↔ m = [] := by
  cases m with
  | nil => exact ⟨fun _ => rfl, fun _ => rfl⟩
  | cons first rest =>
      rw [oldest?]
      split
      · simp
      · split <;> simp

/-- The name used longest ago has the least stamp of all. -/
theorem oldest?_least {m : Assoc Nat} {e : String × Nat} (h : oldest? m = some e) :
    e ∈ m ∧ ∀ e' ∈ m, e.2 ≤ e'.2 := by
  induction m generalizing e with
  | nil => cases h
  | cons first rest ih =>
      rw [oldest?] at h
      cases hrest : oldest? rest with
      | none =>
          rw [hrest] at h
          obtain rfl := Option.some.inj h
          rw [oldest?_eq_none_iff.mp hrest]
          simp
      | some least =>
          rw [hrest] at h
          obtain ⟨hmem, hleast⟩ := ih hrest
          have hcons {x y : String × Nat} (hx : y.2 ≤ first.2) (hy : y.2 ≤ least.2)
              (hx' : x ∈ first :: rest) : y.2 ≤ x.2 := by
            rcases List.mem_cons.mp hx' with rfl | hx'
            · exact hx
            · exact Nat.le_trans hy (hleast x hx')
          simp only at h
          split at h
          · next hlt =>
              obtain rfl := Option.some.inj h
              exact ⟨List.mem_cons_of_mem _ hmem,
                fun _ => hcons (Nat.le_of_lt hlt) (Nat.le_refl _)⟩
          · next hge =>
              obtain rfl := Option.some.inj h
              exact ⟨List.mem_cons_self .., fun _ => hcons (Nat.le_refl _) (Nat.le_of_not_lt hge)⟩

theorem oldest?_eq_head? {m order : Assoc Nat} (h : ByRecency m order) :
    oldest? m = order.head? := by
  cases hold : oldest? m with
  | none =>
      obtain rfl := oldest?_eq_none_iff.mp hold
      rw [List.perm_nil.mp h.perm]
      rfl
  | some e =>
      obtain ⟨hmem, hleast⟩ := oldest?_least hold
      have horder : e ∈ order := h.perm.mem_iff.mpr hmem
      cases order with
      | nil => cases horder
      | cons first rest =>
          rcases List.mem_cons.mp horder with rfl | hrest
          · rfl
          · have hlt := (List.pairwise_cons.mp h.rising).1 e hrest
            have hle := hleast first (h.perm.mem_iff.mp (List.mem_cons_self ..))
            omega

end CodeCache

end ScriptSandbox
