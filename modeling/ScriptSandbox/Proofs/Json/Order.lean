import ScriptSandbox.Proofs.Data.Assoc
import ScriptSandbox.Proofs.Json.Records

/-!
# The order of members

Two documents that differ in the order of the members of their objects, at any depth, are `Reordered`.
A way to read documents may not care for that (`Orderless`), and it may not even care in which order the
members of an object stand that bear the same name (`Unordered`). Where what is read is only the same
as far as a relation says, two results agree if both are there and are the same so far, or neither is
there.
-/

namespace ScriptSandbox.Json

/-! ## Documents with another order -/

section Reordering

variable {ν : Type}

/-- Documents that differ in the order of the members of their objects, at any depth. Members of the
same name keep their order. -/
inductive Reordered : Document ν → Document ν → Prop
  | refl (v : Document ν) : Reordered v v
  | trans {u v w : Document ν} : Reordered u v → Reordered v w → Reordered u w
  | item {v w : Document ν} (vs ws : List (Document ν)) :
      Reordered v w → Reordered (.list (vs ++ v :: ws)) (.list (vs ++ w :: ws))
  | member {v w : Document ν} (ms ns : List (String × Document ν)) (k : String) :
      Reordered v w → Reordered (.object (ms ++ (k, v) :: ns)) (.object (ms ++ (k, w) :: ns))
  | swap (ms ns : List (String × Document ν)) {m n : String × Document ν} (h : m.1 ≠ n.1) :
      Reordered (.object (ms ++ m :: n :: ns)) (.object (ms ++ n :: m :: ns))

end Reordering

/-! ## Results that agree -/

section Agreement

variable {α β : Type} {R : α → α → Prop} {S : β → β → Prop} {a? b? c? : Option α}

theorem rel_refl (hR : ∀ a, R a a) (a? : Option α) : Option.Rel R a? a? := by
  cases a? with
  | none => exact .none
  | some a => exact .some (hR a)

theorem rel_trans (hR : ∀ {a b c}, R a b → R b c → R a c) (h₁ : Option.Rel R a? b?)
    (h₂ : Option.Rel R b? c?) : Option.Rel R a? c? := by
  cases h₁ with
  | none => exact h₂
  | some h₁ =>
      cases h₂ with
      | some h₂ => exact .some (hR h₁ h₂)

theorem rel_bind {f g : α → Option β} (h : Option.Rel R a? b?)
    (hfg : ∀ a b, R a b → Option.Rel S (f a) (g b)) : Option.Rel S (a?.bind f) (b?.bind g) := by
  cases h with
  | none => exact .none
  | some h => exact hfg _ _ h

theorem rel_map {f g : α → β} (h : Option.Rel R a? b?) (hfg : ∀ a b, R a b → S (f a) (g b)) :
    Option.Rel S (a?.map f) (b?.map g) := by
  cases h with
  | none => exact .none
  | some h => exact .some (hfg _ _ h)

theorem rel_within (depth : Nat) (h : Option.Rel R a? b?) :
    Option.Rel R (within depth a?) (within depth b?) := by
  rw [within, within]
  split
  · exact .none
  · exact h

theorem eq_of_rel (h : Option.Rel Eq a? b?) : a? = b? := by
  cases h with
  | none => rfl
  | some h => rw [h]

end Agreement

section Lists

variable {ν α β : Type} {g : α → Option β}

theorem mapM_append_cons (as bs : List α) (a : α) :
    (as ++ a :: bs).mapM g =
      (as.mapM g).bind fun cs => (g a).bind fun c => (bs.mapM g).map fun ds => cs ++ c :: ds := by
  rw [List.mapM_append, List.mapM_cons]
  cases as.mapM g with
  | none => rfl
  | some cs =>
      cases g a with
      | none => rfl
      | some c => cases bs.mapM g <;> rfl

theorem mapM_perm {as bs : List α} (h : as.Perm bs) :
    Option.Rel List.Perm (as.mapM g) (bs.mapM g) := by
  induction h with
  | nil => exact .some .nil
  | cons a _ ih =>
      rw [List.mapM_cons, List.mapM_cons]
      exact rel_bind (rel_refl (fun _ => rfl) (g a)) fun c c' hc =>
        rel_bind ih fun cs ds hperm => .some (hc ▸ hperm.cons c)
  | swap a b as =>
      rw [List.mapM_cons, List.mapM_cons, List.mapM_cons, List.mapM_cons]
      cases g a with
      | none => cases g b <;> exact .none
      | some c =>
          cases g b with
          | none => exact .none
          | some d =>
              cases as.mapM g with
              | none => exact .none
              | some cs => exact .some (.swap c d cs)
  | trans _ _ ih₁ ih₂ => exact rel_trans (fun h h' => h.trans h') ih₁ ih₂

/-- A step whose repetitions may change places can be repeated in any order. -/
theorem foldlM_perm {σ : Type} {S : σ → σ → Prop} (hS : Equivalence S) {step : σ → α → Option σ}
    (hstep : ∀ a s s', S s s' → Option.Rel S (step s a) (step s' a))
    (hcomm : ∀ a b s, Option.Rel S ((step s a).bind (step · b)) ((step s b).bind (step · a)))
    {as bs : List α} (h : as.Perm bs) {s s' : σ} (hs : S s s') :
    Option.Rel S (as.foldlM step s) (bs.foldlM step s') := by
  have hfold (as : List α) {s s' : σ} (hs : S s s') :
      Option.Rel S (as.foldlM step s) (as.foldlM step s') := by
    induction as generalizing s s' with
    | nil => exact .some hs
    | cons a as ih =>
        rw [List.foldlM_cons, List.foldlM_cons]
        exact rel_bind (hstep a s s' hs) fun _ _ => ih
  induction h generalizing s s' with
  | nil => exact .some hs
  | cons a _ ih =>
      rw [List.foldlM_cons, List.foldlM_cons]
      exact rel_bind (hstep a s s' hs) fun _ _ => ih
  | swap a b as =>
      have hboth : Option.Rel S ((step s a).bind (step · b)) ((step s' a).bind (step · b)) :=
        rel_bind (hstep a s s' hs) fun t t' ht => hstep b t t' ht
      have hgo := rel_bind (rel_trans (R := S) hS.trans (hcomm b a s) hboth) fun _ _ =>
        hfold as
      simpa only [List.foldlM_cons, Option.bind_eq_bind, Option.bind_assoc] using hgo
  | trans _ _ ih₁ ih₂ => exact rel_trans hS.trans (ih₁ (hS.refl s)) (ih₂ hs)

end Lists

/-! ## Ways to read documents -/

/-- A way to read documents that does not care for the order of members: what it gives agrees as `R`
says, and so does whether it gives anything. -/
def Orderless {ν α : Type} (R : α → α → Prop) (g : Document ν → Option α) : Prop :=
  ∀ v w : Document ν, Reordered v w → Option.Rel R (g v) (g w)

/-- A way to read documents that does not care in which order the members of an object stand, not even
those with the same name. -/
def Unordered {ν α : Type} (R : α → α → Prop) (g : Document ν → Option α) : Prop :=
  ∀ ms ns : List (String × Document ν), ms.Perm ns → Option.Rel R (g (.object ms)) (g (.object ns))

namespace Orderless

variable {ν α β : Type} {R : α → α → Prop} {g : Document ν → Option α}

/-- It is enough to look at one item, one member, and two members that change places. -/
theorem of_steps (hR : Equivalence R)
    (hitem : ∀ (vs ws : List (Document ν)) (v w : Document ν), Reordered v w →
      Option.Rel R (g (.list (vs ++ v :: ws))) (g (.list (vs ++ w :: ws))))
    (hmember : ∀ (ms ns : List (String × Document ν)) (k : String) (v w : Document ν),
      Reordered v w →
      Option.Rel R (g (.object (ms ++ (k, v) :: ns))) (g (.object (ms ++ (k, w) :: ns))))
    (hswap : ∀ (ms ns : List (String × Document ν)) (m n : String × Document ν), m.1 ≠ n.1 →
      Option.Rel R (g (.object (ms ++ m :: n :: ns))) (g (.object (ms ++ n :: m :: ns)))) :
    Orderless R g := by
  intro v w h
  induction h with
  | refl v => exact rel_refl hR.refl _
  | trans _ _ ih₁ ih₂ => exact rel_trans hR.trans ih₁ ih₂
  | item vs ws h _ => exact hitem vs ws _ _ h
  | member ms ns k h _ => exact hmember ms ns k _ _ h
  | swap ms ns h => exact hswap ms ns _ _ h

/-- A reading that does not care for the order of an object's members at all only needs a look at the
parts of lists and objects. -/
theorem of_unordered (hR : Equivalence R) (h : Unordered R g)
    (hitem : ∀ (vs ws : List (Document ν)) (v w : Document ν), Reordered v w →
      Option.Rel R (g (.list (vs ++ v :: ws))) (g (.list (vs ++ w :: ws))))
    (hmember : ∀ (ms ns : List (String × Document ν)) (k : String) (v w : Document ν),
      Reordered v w →
      Option.Rel R (g (.object (ms ++ (k, v) :: ns))) (g (.object (ms ++ (k, w) :: ns)))) :
    Orderless R g :=
  of_steps hR hitem hmember fun ms ns m n _ => h _ _ ((List.Perm.swap n m ns).append_left ms)

/-- A reading that neither lists nor objects are good for. -/
theorem of_leaves (hR : Equivalence R) (hlist : ∀ vs, g (.list vs) = none)
    (hobject : ∀ ms, g (.object ms) = none) : Orderless R g := by
  refine of_steps hR ?_ ?_ ?_
  · intro vs ws v w _
    rw [hlist, hlist]
    exact .none
  · intro ms ns k v w _
    rw [hobject, hobject]
    exact .none
  · intro ms ns m n _
    rw [hobject, hobject]
    exact .none

theorem map {S : β → β → Prop} (h : Orderless R g) {f : α → β} (hf : ∀ a b, R a b → S (f a) (f b)) :
    Orderless S fun v => (g v).map f :=
  fun v w hvw => rel_map (h v w hvw) hf

theorem within (h : Orderless R g) (depth : Nat) : Orderless R fun v => within depth (g v) :=
  fun v w hvw => rel_within depth (h v w hvw)

end Orderless

section Parts

variable {ν μ : Type} {g : Document ν → Option (Document μ)} {v w : Document ν}

theorem mapM_item (h : Option.Rel Reordered (g v) (g w)) (vs ws : List (Document ν)) :
    Option.Rel (fun xs ys => Reordered (.list xs) (.list ys)) ((vs ++ v :: ws).mapM g)
      ((vs ++ w :: ws).mapM g) := by
  rw [mapM_append_cons, mapM_append_cons]
  refine rel_bind (R := Eq) (rel_refl (fun _ => rfl) _) ?_
  rintro us _ rfl
  refine rel_bind h fun _ _ h => ?_
  refine rel_map (R := Eq) (rel_refl (fun _ => rfl) _) ?_
  rintro us' _ rfl
  exact .item us us' h

theorem entriesOf_member (h : Option.Rel Reordered (g v) (g w)) (ms ns : List (String × Document ν))
    (k : String) :
    Option.Rel (fun xs ys => Reordered (.object xs) (.object ys))
      (entriesOf g (ms ++ (k, v) :: ns)) (entriesOf g (ms ++ (k, w) :: ns)) := by
  rw [entriesOf, entriesOf, mapM_append_cons, mapM_append_cons]
  refine rel_bind (R := Eq) (rel_refl (fun _ => rfl) _) ?_
  rintro us _ rfl
  refine rel_bind (R := fun x y => x.1 = k ∧ y.1 = k ∧ Reordered x.2 y.2)
    (rel_map h fun _ _ h => ⟨rfl, rfl, h⟩) ?_
  rintro ⟨_, v⟩ ⟨_, w⟩ ⟨rfl, rfl, h⟩
  refine rel_map (R := Eq) (rel_refl (fun _ => rfl) _) ?_
  rintro us' _ rfl
  exact .member us us' _ h

theorem entriesOf_swap (ms ns : List (String × Document ν)) {m n : String × Document ν}
    (hne : m.1 ≠ n.1) :
    Option.Rel (fun xs ys => Reordered (.object xs) (.object ys))
      (entriesOf g (ms ++ m :: n :: ns)) (entriesOf g (ms ++ n :: m :: ns)) := by
  rw [entriesOf, entriesOf, mapM_append_cons, mapM_append_cons, List.mapM_cons, List.mapM_cons]
  refine rel_bind (R := Eq) (rel_refl (fun _ => rfl) _) ?_
  rintro us _ rfl
  cases g m.2 with
  | none => cases g n.2 <;> exact .none
  | some a =>
      cases g n.2 with
      | none => exact .none
      | some b =>
          cases ns.mapM fun m => (g m.2).map (m.1, ·) with
          | none => exact .none
          | some us' => exact .some (.swap us us' hne)

end Parts

/-- What is kept of a document is kept in the order of its members. -/
theorem anyOf_orderless (depth : Nat) : Orderless Reordered (anyOf depth) := by
  intro v w h
  induction h generalizing depth with
  | refl v => exact rel_refl .refl _
  | trans _ _ ih₁ ih₂ => exact rel_trans .trans (ih₁ depth) (ih₂ depth)
  | item vs ws _ ih =>
      cases depth with
      | zero => exact .none
      | succ depth => exact rel_within _ (rel_map (mapM_item (ih depth) vs ws) fun _ _ h => h)
  | member ms ns k _ ih =>
      cases depth with
      | zero => exact .none
      | succ depth => exact rel_within _ (rel_map (entriesOf_member (ih depth) ms ns k) fun _ _ h => h)
  | swap ms ns hne =>
      cases depth with
      | zero => exact .none
      | succ depth => exact rel_within _ (rel_map (entriesOf_swap ms ns hne) fun _ _ h => h)

end ScriptSandbox.Json
