import Mathlib.Data.List.Find
import Mathlib.Data.List.Forall2
import Mathlib.Data.List.Pairwise
import ScriptSandbox.Proofs.Json.Order

/-!
# Decoders that do not care for order

A decoder is `Steady` if it reads the same of a document wherever its text stands and in whatever order
the members of its objects come. A decoder of records is, if its fields are and do not meddle with each
other (`Steady.record`), and so is a decoder of tagged objects whose variants are (`Steady.tagged`). To
both, the order of an object's own members is no matter even where a name comes twice
(`record_unordered`, `tagged_unordered`): they refuse a member that they know and have already met.
-/

namespace ScriptSandbox.Json

/-! ## The parts of documents -/

namespace Orderless

variable {ν α : Type} {g : Document ν → Option α}

theorem optionOf (h : Orderless Eq g) : Orderless Eq (Decoder.optionOf g) := by
  refine of_steps eq_equivalence ?_ ?_ ?_
  · exact fun vs ws v w hvw => rel_map (h _ _ (.item vs ws hvw)) fun _ _ => congrArg some
  · exact fun ms ns k v w hvw => rel_map (h _ _ (.member ms ns k hvw)) fun _ _ => congrArg some
  · exact fun ms ns m n hne => rel_map (h _ _ (.swap ms ns hne)) fun _ _ => congrArg some

theorem listOf (h : Orderless Eq g) : Orderless Eq (Decoder.listOf g) := by
  refine of_steps eq_equivalence ?_ ?_ ?_
  · intro vs ws v w hvw
    rw [Decoder.listOf, Decoder.listOf, mapM_append_cons, mapM_append_cons, eq_of_rel (h v w hvw)]
    exact rel_refl (fun _ => rfl) _
  · exact fun _ _ _ _ _ _ => .none
  · exact fun _ _ _ _ _ => .none

/-- The members of an object are read in the order in which they stand, which does not matter where
they become a map. -/
theorem membersOf (h : Orderless Eq g) :
    Orderless (fun ps qs => Assoc.ofPairs ps = Assoc.ofPairs qs) (Decoder.membersOf g) := by
  have hmaps : Equivalence fun ps qs : List (String × α) => Assoc.ofPairs ps = Assoc.ofPairs qs :=
    ⟨fun _ => rfl, Eq.symm, Eq.trans⟩
  refine of_steps hmaps ?_ ?_ ?_
  · exact fun _ _ _ _ _ => .none
  · intro ms ns k v w hvw
    simp only [Decoder.membersOf, entriesOf, mapM_append_cons, eq_of_rel (h v w hvw)]
    exact rel_refl hmaps.refl _
  · intro ms ns m n hne
    simp only [Decoder.membersOf, entriesOf, mapM_append_cons, List.mapM_cons]
    cases ms.mapM fun m => (g m.2).map (m.1, ·) with
    | none => exact .none
    | some ps =>
        cases g m.2 with
        | none => cases g n.2 <;> exact .none
        | some a =>
            cases g n.2 with
            | none => exact .none
            | some b =>
                cases ns.mapM fun m => (g m.2).map (m.1, ·) with
                | none => exact .none
                | some qs => exact .some (Assoc.ofPairs_swap ps qs hne)

def nameOrOnly (name : String → Option α) (only : String → Document ν → Option α) :
    Document ν → Option α
  | .text s => name s
  | .object [(k, v)] => only k v
  | _ => none

theorem nameOrOnly_orderless (name : String → Option α) {only : String → Document ν → Option α}
    (h : ∀ k, Orderless Eq (only k)) : Orderless Eq (nameOrOnly name only) := by
  refine of_steps eq_equivalence ?_ ?_ ?_
  · exact fun _ _ _ _ _ => .none
  · intro ms ns k v w hvw
    rcases ms with _ | ⟨m, _ | ⟨m', ms⟩⟩
    · cases ns with
      | nil => exact h k v w hvw
      | cons n ns => exact .none
    · exact .none
    · exact .none
  · intro ms ns m n _
    rcases ms with _ | ⟨m', _ | ⟨m'', ms⟩⟩
    · exact .none
    · exact .none
    · exact .none

theorem variantOf (alternatives : List (String × α)) :
    Orderless (ν := ν) Eq (Decoder.variantOf alternatives) :=
  of_leaves eq_equivalence (fun _ => rfl) fun _ => rfl

theorem namesOf (alternatives : List (String × α)) (depth : Nat) :
    Orderless (ν := ν) Eq (Decoder.namesOf alternatives depth) := by
  have hnull : Orderless (ν := ν) Eq Decoder.nullOf :=
    of_leaves eq_equivalence (fun _ => rfl) fun _ => rfl
  have honly (k : String) : Orderless (ν := ν) Eq fun v => Json.within depth
      ((Decoder.pick alternatives k).toOption.bind fun a => (Decoder.nullOf v).map fun _ => a) :=
    fun v w hvw => rel_within depth (rel_bind (rel_refl (fun _ => rfl) _) fun a _ hab =>
      rel_map (hnull v w hvw) fun _ _ _ => hab)
  have hnames : Decoder.namesOf (ν := ν) alternatives depth =
      nameOrOnly (fun s => (Decoder.pick alternatives s).toOption) fun k v => Json.within depth
        ((Decoder.pick alternatives k).toOption.bind fun a => (Decoder.nullOf v).map fun _ => a) := by
    funext v
    match v with
    | .object [] => exact within_none depth
    | .object [(k, v)] =>
        rw [Decoder.namesOf, Decoder.onlyNameOf, nameOrOnly]
        cases Decoder.nullOf v <;> rfl
    | .object (m :: n :: ms) => simp [Decoder.namesOf, Decoder.onlyNameOf, nameOrOnly]
    | .text s => rfl
    | .null | .bool _ | .number _ | .list _ => rfl
  rw [hnames]
  exact nameOrOnly_orderless _ honly

/-- What stands for nothing as the value of a name. -/
def nothingOf : Document ν → Option Unit
  | .null => some ()
  | .object [] => some ()
  | _ => none

theorem nothingOf_orderless : Orderless (ν := ν) Eq nothingOf := by
  refine of_steps eq_equivalence ?_ ?_ ?_
  · exact fun _ _ _ _ _ => .none
  · intro ms ns k v w _
    cases ms <;> exact .none
  · intro ms ns m n _
    cases ms <;> exact .none

theorem oneOfNames_ofValue (alternatives : List (String × α)) :
    Orderless Eq fun v => ((Decoder.oneOfNames alternatives).ofValue v.value).toOption := by
  have honly (k : String) : Orderless (ν := Number) Eq fun v =>
      (Decoder.pick alternatives k).toOption.bind fun a => (nothingOf v).map fun _ => a :=
    fun v w hvw => rel_bind (rel_refl (fun _ => rfl) _) fun a _ hab =>
      rel_map (nothingOf_orderless v w hvw) fun _ _ _ => hab
  have hnames : (fun v => ((Decoder.oneOfNames alternatives).ofValue v.value).toOption) =
      nameOrOnly (fun s => (Decoder.pick alternatives s).toOption) fun k v =>
        (Decoder.pick alternatives k).toOption.bind fun a => (nothingOf v).map fun _ => a := by
    funext v
    cases v with
    | object ms =>
        rcases ms with _ | ⟨⟨k, v⟩, _ | ⟨m, ms⟩⟩
        · rfl
        · simp only [Decoder.oneOfNames, nameOrOnly, Document.value, keptMembers]
          cases Decoder.pick alternatives k with
          | error e => rfl
          | ok a =>
              cases v with
              | object ms => cases ms <;> rfl
              | _ => rfl
        · rfl
    | _ => rfl
  rw [hnames]
  exact nameOrOnly_orderless _ honly

end Orderless

/-! ## Drafts -/

namespace Decoder

section Drafts

variable {ν σ : Type} {fields : List (Field σ)} {S : σ → σ → Prop}
  {g : Field σ → Document ν → Option (σ → σ)}

/-- What a field puts into a draft. -/
def Field.Puts (f : Field σ) (put : σ → σ) : Prop :=
  (∃ r r', f.value.read r = .ok (put, r')) ∨ ∃ v, f.value.ofValue v = .ok put

/-- The fields of a draft do not meddle with each other; drafts are the same as far as `S` says. -/
structure Apart (S : σ → σ → Prop) (fields : List (Field σ)) : Prop where
  equiv : Equivalence S
  given_eq : ∀ f ∈ fields, ∀ s s', S s s' → f.given s = f.given s'
  given_put : ∀ f ∈ fields, ∀ put, f.Puts put → ∀ s, f.given (put s) = true
  given_foreign : ∀ f ∈ fields, ∀ f' ∈ fields, f.name ≠ f'.name → ∀ put, f.Puts put → ∀ s,
    f'.given (put s) = f'.given s
  comm : ∀ f ∈ fields, ∀ f' ∈ fields, f.name ≠ f'.name → ∀ put put', f.Puts put → f'.Puts put' →
    ∀ s, S (put' (put s)) (put (put' s))

/-- What a field puts into a draft is no concern of another field. -/
structure Field.Foreign (f f' : Field σ) : Prop where
  given : ∀ put, f.Puts put → ∀ s, f'.given (put s) = f'.given s
  given_back : ∀ put, f'.Puts put → ∀ s, f.given (put s) = f.given s
  comm : ∀ put put', f.Puts put → f'.Puts put' → ∀ s, put' (put s) = put (put' s)

instance : Std.Symm (Field.Foreign (σ := σ)) where
  symm _ _ h := ⟨h.given_back, h.given, fun put put' hput hput' s => (h.comm put' put hput' hput s).symm⟩

theorem Apart.of_pairwise (hput : ∀ f ∈ fields, ∀ put, f.Puts put → ∀ s, f.given (put s) = true)
    (h : fields.Pairwise Field.Foreign) : Apart Eq fields := by
  have hforeign {f f' : Field σ} (hf : f ∈ fields) (hf' : f' ∈ fields) (hne : f.name ≠ f'.name) :
      f.Foreign f' := h.forall hf hf' fun heq => hne (congrArg Field.name heq)
  exact ⟨eq_equivalence, fun f _ s s' hs => congrArg f.given hs, hput,
    fun f hf f' hf' hne => (hforeign hf hf' hne).given,
    fun f hf f' hf' hne => (hforeign hf hf' hne).comm⟩

/-- A record with one field has nothing to meddle with. -/
theorem Apart.singleton {f : Field σ} (hequiv : Equivalence S)
    (hgiven : ∀ s s', S s s' → f.given s = f.given s')
    (hput : ∀ put, f.Puts put → ∀ s, f.given (put s) = true) : Apart S [f] := by
  have hone {f' f'' : Field σ} (hf' : f' ∈ [f]) (hf'' : f'' ∈ [f]) (hne : f'.name ≠ f''.name) :
      False :=
    hne (congrArg Field.name ((List.mem_singleton.mp hf').trans (List.mem_singleton.mp hf'').symm))
  exact ⟨hequiv, fun f' hf' => List.mem_singleton.mp hf' ▸ hgiven,
    fun f' hf' => List.mem_singleton.mp hf' ▸ hput,
    fun f' hf' f'' hf'' hne => (hone hf' hf'' hne).elim,
    fun f' hf' f'' hf'' hne => (hone hf' hf'' hne).elim⟩

/-- What two fields put leaves drafts the same. -/
def SamePut (S : σ → σ → Prop) (put put' : σ → σ) : Prop := ∀ s s', S s s' → S (put s) (put' s')

theorem exists_of_puts {β : Type} {name : String} {required : Bool} {d : Decoder β}
    {get? : σ → Option β} {place : β → σ → σ} {put : σ → σ}
    (h : (Field.of name required d get? place).Puts put) : ∃ b, put = place b := by
  rcases h with ⟨r, r', hread⟩ | ⟨v, hvalue⟩
  · simp only [Field.of, Decoder.map] at hread
    split at hread
    · next b _ _ => exact ⟨b, (Prod.mk.inj (Except.ok.inj hread)).1.symm⟩
    · cases hread
  · simp only [Field.of, Decoder.map] at hvalue
    cases hb : d.ofValue v with
    | error e => rw [hb] at hvalue; cases hvalue
    | ok b => rw [hb] at hvalue; exact ⟨b, (Except.ok.inj hvalue).symm⟩

section Places

variable {β β' : Type} {name name' : String} {required required' : Bool} {d : Decoder β}
  {d' : Decoder β'} {get? : σ → Option β} {get?' : σ → Option β'} {place : β → σ → σ}
  {place' : β' → σ → σ}

theorem Field.given_of (hget : ∀ b s, (get? (place b s)).isSome = true) (put : σ → σ)
    (hput : (Field.of name required d get? place).Puts put) (s : σ) :
    (Field.of name required d get? place).given (put s) = true := by
  obtain ⟨b, rfl⟩ := exists_of_puts hput
  exact hget b s

/-- Fields with places of their own are no concern of each other. -/
theorem Field.foreign_of (hget : ∀ b s, (get?' (place b s)).isSome = (get?' s).isSome)
    (hget' : ∀ b s, (get? (place' b s)).isSome = (get? s).isSome)
    (hplace : ∀ b b' s, place' b' (place b s) = place b (place' b' s)) :
    (Field.of name required d get? place).Foreign (Field.of name' required' d' get?' place') where
  given put hput s := by
    obtain ⟨b, rfl⟩ := exists_of_puts hput
    exact hget b s
  given_back put hput s := by
    obtain ⟨b, rfl⟩ := exists_of_puts hput
    exact hget' b s
  comm put put' hput hput' s := by
    obtain ⟨b, rfl⟩ := exists_of_puts hput
    obtain ⟨b', rfl⟩ := exists_of_puts hput'
    exact hplace b b' s

end Places

/-- Ways to read the fields of a record that do not care for the order of members. -/
structure Fair (S : σ → σ → Prop) (fields : List (Field σ))
    (g : Field σ → Document ν → Option (σ → σ)) : Prop where
  orderless : ∀ f ∈ fields, Orderless (SamePut S) (g f)
  puts : ∀ f ∈ fields, ∀ v put, g f v = some put → f.Puts put

theorem name_of_fieldNamed? {name : String} {f : Field σ} (h : fieldNamed? fields name = some f) :
    f.name = name := by
  have hname : (f.name == name) = true := List.find?_some (p := fun f : Field σ => f.name == name) h
  exact eq_of_beq hname

/-- A member changes drafts that are the same into drafts that are the same. -/
theorem memberStep_rel (hfields : Apart S fields) (hg : Fair S fields g) {k : String}
    {v w : Document ν} (hvw : Reordered v w) {s s' : σ} (hs : S s s') :
    Option.Rel S (memberStep fields g s (k, v)) (memberStep fields g s' (k, w)) := by
  rw [memberStep, memberStep]
  cases hname : fieldNamed? fields k with
  | none => exact .some hs
  | some f =>
      have hf := mem_of_fieldNamed? hname
      simp only [hfields.given_eq f hf s s' hs]
      split
      · exact .none
      · exact rel_map (hg.orderless f hf v w hvw) fun put put' hput => hput s s' hs

/-- A field that has been met is not met again. -/
theorem memberStep_twice (hfields : Apart S fields) (hg : Fair S fields g) {m n : String × Document ν}
    {f : Field σ} (hm : fieldNamed? fields m.1 = some f) (hn : fieldNamed? fields n.1 = some f)
    (s : σ) : (memberStep fields g s m).bind (memberStep fields g · n) = none := by
  have hf := mem_of_fieldNamed? hm
  simp only [memberStep, hm, hn]
  cases hput : g f m.2 with
  | none => cases f.given s <;> rfl
  | some put =>
      have hgiven := hfields.given_put f hf put (hg.puts f hf _ _ hput) s
      cases f.given s <;> simp [hgiven]

/-- Two members change a draft in either order. -/
theorem memberStep_comm (hfields : Apart S fields) (hg : Fair S fields g) (m n : String × Document ν)
    (s : σ) :
    Option.Rel S ((memberStep fields g s m).bind (memberStep fields g · n))
      ((memberStep fields g s n).bind (memberStep fields g · m)) := by
  cases hm : fieldNamed? fields m.1 with
  | none =>
      have hskip (s : σ) : memberStep fields g s m = some s := by simp only [memberStep, hm]
      simp only [hskip, Option.bind_some, Option.bind_fun_some]
      exact rel_refl hfields.equiv.refl _
  | some f =>
      cases hn : fieldNamed? fields n.1 with
      | none =>
          have hskip (s : σ) : memberStep fields g s n = some s := by simp only [memberStep, hn]
          simp only [hskip, Option.bind_some, Option.bind_fun_some]
          exact rel_refl hfields.equiv.refl _
      | some f' =>
          by_cases hsame : m.1 = n.1
          · have hboth : f = f' := Option.some.inj (hm.symm.trans (hsame ▸ hn))
            subst hboth
            rw [memberStep_twice hfields hg hm hn, memberStep_twice hfields hg hn hm]
            exact .none
          · have hf := mem_of_fieldNamed? hm
            have hf' := mem_of_fieldNamed? hn
            have hnames : f.name ≠ f'.name := by
              rw [name_of_fieldNamed? hm, name_of_fieldNamed? hn]
              exact hsame
            simp only [memberStep, hm, hn]
            cases hput : g f m.2 with
            | none => cases f.given s <;> cases f'.given s <;> simp
            | some put =>
                cases hput' : g f' n.2 with
                | none => cases f.given s <;> cases f'.given s <;> simp
                | some put' =>
                    have hputs := hg.puts f hf _ _ hput
                    have hputs' := hg.puts f' hf' _ _ hput'
                    have hgiven := hfields.given_foreign f hf f' hf' hnames put hputs s
                    have hgiven' := hfields.given_foreign f' hf' f hf hnames.symm put' hputs' s
                    have hcomm := hfields.comm f hf f' hf' hnames put put' hputs hputs' s
                    cases h : f.given s <;> cases h' : f'.given s <;>
                      simp [h, h', hgiven, hgiven', hcomm]

theorem complete_rel (hfields : Apart S fields) {s s' : σ} (hs : S s s') :
    Option.Rel S (complete fields s) (complete fields s') := by
  have hmissing : missing? fields s = missing? fields s' := by
    rw [missing?, missing?]
    refine congrArg _ (List.find?_congr fun f hf => ?_)
    rw [hfields.given_eq f hf s s' hs]
  rw [complete, complete, hmissing]
  split
  · exact .none
  · exact .some hs

theorem inOrder_rel {fs : List (Field σ)} (hg : ∀ f ∈ fs, Orderless (SamePut S) (g f))
    {vs ws : List (Document ν)} (h : List.Forall₂ Reordered vs ws) {s s' : σ}
    (hs : S s s') : Option.Rel S (inOrder g fs s vs) (inOrder g fs s' ws) := by
  induction fs generalizing vs ws s s' with
  | nil =>
      cases h with
      | nil => exact .some hs
      | cons _ _ => exact .none
  | cons f fs ih =>
      have hrest : ∀ f ∈ fs, Orderless (SamePut S) (g f) := fun f hf =>
        hg f (List.mem_cons_of_mem _ hf)
      cases h with
      | nil =>
          rw [inOrder, inOrder]
          split
          · exact .none
          · exact ih hrest .nil hs
      | cons hvw hrests =>
          rw [inOrder, inOrder]
          exact rel_bind (hg f (List.mem_cons_self ..) _ _ hvw) fun put put' hput =>
            ih hrest hrests (hput s s' hs)

/-- Which draft an object gives does not depend on the order of its members. -/
theorem draftOf_unordered (hfields : Apart S fields) (hg : Fair S fields g) (blank : σ) :
    Unordered S (draftOf fields g blank) := fun _ _ h =>
  rel_bind (foldlM_perm hfields.equiv (fun m _ _ => memberStep_rel hfields hg (.refl m.2))
    (memberStep_comm hfields hg) h (hfields.equiv.refl blank)) fun _ _ => complete_rel hfields

/-- Which draft a document gives does not depend on the order of members, at any depth. -/
theorem draftOf_orderless (hfields : Apart S fields) (hg : Fair S fields g) (blank : σ) :
    Orderless S (draftOf fields g blank) := by
  refine .of_unordered hfields.equiv (draftOf_unordered hfields hg blank) ?_ ?_
  · intro vs ws v w hvw
    refine inOrder_rel hg.orderless ?_ (hfields.equiv.refl blank)
    have hsame (us : List (Document ν)) : List.Forall₂ Reordered us us :=
      List.forall₂_same.mpr fun u _ => .refl u
    exact List.rel_append (hsame vs) (.cons hvw (hsame ws))
  · intro ms ns k v w hvw
    refine rel_bind ?_ fun _ _ => complete_rel hfields
    rw [List.foldlM_append, List.foldlM_append]
    refine rel_bind (rel_refl hfields.equiv.refl _) fun s s' hs => ?_
    rw [List.foldlM_cons, List.foldlM_cons]
    refine rel_bind (memberStep_rel hfields hg hvw hs) fun _ _ => ?_
    exact foldlM_perm hfields.equiv (fun m _ _ => memberStep_rel hfields hg (.refl m.2))
      (memberStep_comm hfields hg) (.refl ns)

end Drafts

/-! ## Decoders -/

section Decoders

variable {α β σ : Type} {R : α → α → Prop} {d : Decoder α}

/-- A decoder reads a document's text the same wherever it stands, and does not care for the order of
members, neither in a text nor in what is kept of one. -/
structure Steady (R : α → α → Prop) (d : Decoder α) : Prop where
  isLocal : d.Local
  alone : ∀ depth, Orderless R (d.alone depth)
  ofValue : Orderless R fun v => (d.ofValue v.value).toOption

namespace Steady

theorem of_settles {g : Nat → Written → Option α} {g' : Document Number → Option α}
    (hread : ∀ depth v, Settles d.read depth v (g depth v)) (hg : ∀ depth, Orderless R (g depth))
    (hvalue : ∀ v, (d.ofValue v.value).toOption = g' v) (hg' : Orderless R g') : d.Steady R where
  isLocal := .of_settles fun depth v => ⟨g depth v, hread depth v⟩
  alone depth := by
    have heq : d.alone depth = g depth := funext fun v => alone_eq (hread depth v)
    rw [heq]
    exact hg depth
  ofValue := by
    rw [funext hvalue]
    exact hg'

theorem map {S : β → β → Prop} (h : d.Steady R) {f : α → β} (hf : ∀ a b, R a b → S (f a) (f b)) :
    (d.map f).Steady S :=
  of_settles (fun depth v => map_settles (h.isLocal depth v) f) (fun depth => (h.alone depth).map hf)
    (fun v => toOption_ofValue_map f v.value) (h.ofValue.map hf)

theorem text : Decoder.text.Steady Eq := by
  have hvalue (v : Document Number) : (Decoder.text.ofValue v.value).toOption = textOf v := by
    cases v <;> rfl
  refine of_settles (fun _ _ => text_settles) (fun _ => ?_) hvalue ?_
  · exact .of_leaves eq_equivalence (fun _ => rfl) fun _ => rfl
  · exact .of_leaves eq_equivalence (fun _ => rfl) fun _ => rfl

theorem natural (kind : String) : (Decoder.natural kind).Steady Eq := by
  refine of_settles (fun _ _ => natural_settles kind) (fun _ => ?_) (fun _ => rfl) ?_
  · exact .of_leaves eq_equivalence (fun _ => rfl) fun _ => rfl
  · exact .of_leaves eq_equivalence (fun _ => rfl) fun _ => rfl

theorem option (h : d.Steady Eq) : d.option.Steady Eq := by
  refine of_settles (fun depth v => option_settles (h.isLocal depth v))
    (fun depth => .optionOf (h.alone depth)) (fun v => ?_) (.optionOf h.ofValue)
  cases v with
  | null => rfl
  | _ =>
      simp only [Decoder.option, Decoder.map, optionOf, Document.value]
      cases d.ofValue _ <;> rfl

theorem list (h : d.Steady Eq) : d.list.Steady Eq := by
  refine of_settles (fun depth v => list_settles h.isLocal)
    (fun depth => (Orderless.listOf (h.alone (depth - 1))).within depth) (fun v => ?_)
    (.listOf h.ofValue)
  cases v with
  | list vs =>
      simp only [Decoder.list, listOf, Document.value_list]
      induction vs with
      | nil => rfl
      | cons v vs ih =>
          rw [List.map_cons, List.mapM_cons, List.mapM_cons, ← ih]
          cases d.ofValue v.value with
          | error e => rfl
          | ok a => cases (vs.map Document.value).mapM d.ofValue <;> rfl
  | _ => rfl

theorem members (h : d.Steady Eq) :
    d.members.Steady fun ps qs => Assoc.ofPairs ps = Assoc.ofPairs qs := by
  refine of_settles (fun depth v => members_settles h.isLocal)
    (fun depth => (Orderless.membersOf (h.alone (depth - 1))).within depth) (fun v => ?_)
    (.membersOf h.ofValue)
  cases v with
  | object ms =>
      simp only [Decoder.members, membersOf, entriesOf, Document.value_object]
      induction ms with
      | nil => rfl
      | cons m ms ih =>
          rw [List.map_cons, List.mapM_cons, List.mapM_cons, ← ih]
          cases d.ofValue m.2.value with
          | error e => rfl
          | ok a =>
              generalize List.mapM (m := Except Json.Reason) _ (ms.map _) = entries
              cases entries <;> rfl
  | _ => rfl

theorem oneOfNames (alternatives : List (String × α)) :
    (Decoder.oneOfNames alternatives).Steady Eq :=
  of_settles (fun _ _ => names_settles alternatives) (.namesOf alternatives) (fun _ => rfl)
    (.oneOfNames_ofValue alternatives)

end Steady

/-! ## Records -/

section Records

variable {S : σ → σ → Prop} {fields : List (Field σ)}

theorem Steady.field (h : d.Steady R) (place : α → σ → σ)
    (hplace : ∀ a b, R a b → SamePut S (place a) (place b)) (name : String) (required : Bool)
    (get? : σ → Option α) : (Field.of name required d get? place).value.Steady (SamePut S) :=
  h.map hplace

/-- What fields make of what is kept does not depend on the order of members. -/
theorem fair_keptOf (hsteady : ∀ f ∈ fields, f.value.Steady (SamePut S)) : Fair S fields keptOf := by
  refine ⟨fun f hf => (hsteady f hf).ofValue, fun f _ v put hput => .inr ⟨v.value, ?_⟩⟩
  rw [keptOf] at hput
  cases hv : f.value.ofValue v.value with
  | error e => rw [hv] at hput; cases hput
  | ok put' => rw [hv] at hput; exact congrArg _ (Option.some.inj hput)

theorem fair_alone (hsteady : ∀ f ∈ fields, f.value.Steady (SamePut S)) (depth : Nat) :
    Fair S fields fun f => f.value.alone depth := by
  refine ⟨fun f hf => (hsteady f hf).alone depth, fun f _ v put hput => .inl ?_⟩
  simp only [Decoder.alone] at hput
  split at hput
  · next put' r hread => exact ⟨_, r, Option.some.inj hput ▸ hread⟩
  · cases hput

variable (hfields : Apart S fields) (hsteady : ∀ f ∈ fields, f.value.Steady (SamePut S))
include hfields hsteady

/-- A record does not care for order if its fields do not, and do not meddle with each other. -/
theorem Steady.record (title : String) (blank : σ) {finish : σ → α}
    (hfinish : ∀ s s', S s s' → finish s = finish s') :
    (Decoder.record title fields blank finish).Steady Eq :=
  of_settles
    (fun _ v => record_settles (fun f hf => (hsteady f hf).isLocal) title blank finish v)
    (fun depth => ((draftOf_orderless hfields (fair_alone hsteady (depth - 1)) blank).within
      depth).map hfinish)
    (toOption_variantRecord title blank finish)
    ((draftOf_orderless hfields (fair_keptOf hsteady) blank).map hfinish)

/-- The members of a record may come in any order. -/
theorem record_unordered (title : String) (blank : σ) {finish : σ → α}
    (hfinish : ∀ s s', S s s' → finish s = finish s') (depth : Nat) :
    Unordered Eq ((Decoder.record title fields blank finish).alone depth) := by
  intro ms ns h
  have hlocal : ∀ f ∈ fields, f.value.Local := fun f hf => (hsteady f hf).isLocal
  rw [alone_eq (record_settles hlocal title blank finish _),
    alone_eq (record_settles hlocal title blank finish _)]
  exact rel_map (rel_within depth (draftOf_unordered hfields (fair_alone hsteady _) blank ms ns h))
    hfinish

end Records

/-! ## Tagged objects -/

/-- A variant does not care for the order of members. -/
structure Variant.Steady (x : Variant α) : Prop where
  orderless : Orderless Eq fun v : Document Number => (x v.value).toOption
  unordered : Unordered Eq fun v : Document Number => (x v.value).toOption

theorem Variant.steady_bare (a : α) : (Variant.bare a).Steady := by
  have hunordered : Unordered Eq fun v : Document Number => (Variant.bare a v.value).toOption :=
    fun _ _ _ => .some rfl
  refine ⟨.of_unordered eq_equivalence hunordered ?_ fun _ _ _ _ _ _ => .some rfl, hunordered⟩
  intro vs ws v w _
  cases vs <;> exact .none

theorem Variant.steady_record {S : σ → σ → Prop} {fields : List (Field σ)} (hfields : Apart S fields)
    (hsteady : ∀ f ∈ fields, f.value.Steady (SamePut S)) (title : String) (blank : σ)
    {finish : σ → α} (hfinish : ∀ s s', S s s' → finish s = finish s') :
    (Variant.record title fields blank finish).Steady := by
  have hfair := fair_keptOf hsteady
  constructor
  · rw [funext (toOption_variantRecord title blank finish)]
    exact (draftOf_orderless hfields hfair blank).map hfinish
  · rw [funext (toOption_variantRecord title blank finish)]
    exact fun ms ns h => rel_map (draftOf_unordered hfields hfair blank ms ns h) hfinish

section TaggedObjects

variable {tag : String} {variants : List (String × Variant α)} {depth : Nat}

theorem exists_of_variantOf {ν : Type} {v : Document ν} {x : Variant α}
    (h : variantOf variants v = some x) : ∃ e ∈ variants, e.2 = x := by
  cases v with
  | text s =>
      rw [variantOf, pick] at h
      cases hfind : variants.find? (·.1 == s) with
      | none => rw [hfind] at h; cases h
      | some e =>
          rw [hfind] at h
          exact ⟨e, List.mem_of_find?_eq_some hfind, Option.some.inj h⟩
  | _ => cases h

/-- There cannot be two tags. -/
theorem foldlM_tagStep_twice (m n : String × Written) (ms : List (String × Written)) :
    (m :: n :: ms).foldlM (tagStep variants) none = none := by
  rw [List.foldlM_cons, tagStep]
  cases variantOf variants m.2 <;> rfl

theorem exists_of_tags {ms : List (String × Written)} {x : Variant α}
    (h : ms.foldlM (tagStep variants) none = some (some x)) : ∃ e ∈ variants, e.2 = x := by
  match ms with
  | [] => cases h
  | [m] =>
      rw [List.foldlM_cons, tagStep] at h
      cases hx : variantOf variants m.2 with
      | none => rw [hx] at h; cases h
      | some y =>
          rw [hx] at h
          cases h
          exact exists_of_variantOf hx
  | m :: n :: ms => rw [foldlM_tagStep_twice] at h; cases h

/-- Tags may come in any order, for there cannot be two. -/
theorem foldlM_tagStep_perm {ms ns : List (String × Written)} (h : ms.Perm ns) :
    ms.foldlM (tagStep variants) none = ns.foldlM (tagStep variants) none := by
  match ms, ns, h.length_eq with
  | [], [], _ => rfl
  | [m], [n], _ => rw [List.perm_singleton.mp h]
  | _ :: _ :: _, _ :: _ :: _, _ => rw [foldlM_tagStep_twice, foldlM_tagStep_twice]

/-- Objects with the same tags stand for the same, if every variant makes the same of what is kept
beside them. -/
theorem taggedOf_object {Q : List (String × Document Number) → List (String × Document Number) → Prop}
    (hvariants : ∀ e ∈ variants, ∀ es es', Q es es' →
      (e.2 (Document.object es).value).toOption = (e.2 (Document.object es').value).toOption)
    {ms ns : List (String × Written)}
    (htags : (tags tag ms).foldlM (tagStep variants) none =
      (tags tag ns).foldlM (tagStep variants) none)
    (hothers : Option.Rel Q (entriesOf (anyOf depth) (others tag ms))
      (entriesOf (anyOf depth) (others tag ns))) :
    taggedOf tag variants depth (.object ms) = taggedOf tag variants depth (.object ns) := by
  simp only [taggedOf, variantAndRest, htags]
  cases hx : (tags tag ns).foldlM (tagStep variants) none with
  | none => rfl
  | some x? =>
      cases x? with
      | none => rfl
      | some x =>
          obtain ⟨e, he, rfl⟩ := exists_of_tags hx
          generalize entriesOf (anyOf depth) (others tag ms) = es?,
            entriesOf (anyOf depth) (others tag ns) = es?' at hothers ⊢
          cases hothers with
          | none => rfl
          | some h => exact hvariants e he _ _ h

theorem tagged_local (title : String) : (tagged title tag variants).Local :=
  .of_settles fun _ v => ⟨_, tagged_settles title v⟩

variable (hvariants : ∀ e ∈ variants, e.2.Steady)
include hvariants

theorem taggedOf_unordered : Unordered Eq (taggedOf tag variants depth) := by
  intro ms ns h
  have heq : taggedOf tag variants depth (.object ms) = taggedOf tag variants depth (.object ns) :=
    taggedOf_object (Q := List.Perm)
      (fun e he es es' hperm => eq_of_rel ((hvariants e he).unordered es es' hperm))
      (foldlM_tagStep_perm (h.filter _)) (mapM_perm (h.filter _))
  rw [heq]
  exact rel_refl (fun _ => rfl) _

theorem taggedOf_orderless : Orderless Eq (taggedOf tag variants depth) := by
  refine .of_unordered eq_equivalence (taggedOf_unordered hvariants) ?_ ?_
  · intro vs ws v w hvw
    cases vs with
    | nil =>
        have hname : variantOf variants v = variantOf variants w :=
          eq_of_rel (Orderless.variantOf variants v w hvw)
        simp only [taggedOf, List.nil_append, variantAndRest, hname]
        exact rel_refl (fun _ => rfl) _
    | cons u vs =>
        simp only [taggedOf, List.cons_append, variantAndRest]
        cases hx : variantOf variants u with
        | none => exact .none
        | some x =>
            obtain ⟨e, he, rfl⟩ := exists_of_variantOf hx
            refine rel_bind (R := fun x y => x.1 = e.2 ∧ y.1 = e.2 ∧ Reordered x.2 y.2)
              (rel_map (mapM_item (anyOf_orderless depth v w hvw) vs ws) fun _ _ h => ⟨rfl, rfl, h⟩) ?_
            rintro ⟨_, u⟩ ⟨_, u'⟩ ⟨rfl, hx', h⟩
            rw [hx']
            exact (hvariants e he).orderless u u' h
  · intro ms ns k v w hvw
    have heq : taggedOf tag variants depth (.object (ms ++ (k, v) :: ns)) =
        taggedOf tag variants depth (.object (ms ++ (k, w) :: ns)) := by
      have hname : variantOf variants v = variantOf variants w :=
        eq_of_rel (Orderless.variantOf variants v w hvw)
      refine taggedOf_object (Q := fun es es' => Reordered (.object es) (.object es'))
        (fun e he es es' h => eq_of_rel ((hvariants e he).orderless _ _ h)) ?_ ?_
      · simp only [tags, List.filter_append, List.filter_cons]
        split
        · simp only [List.foldlM_append, List.foldlM_cons, tagStep, hname]
        · rfl
      · simp only [others, List.filter_append, List.filter_cons]
        split
        · exact entriesOf_member (anyOf_orderless depth v w hvw) _ _ k
        · exact rel_refl (fun _ => .refl _) _
    rw [heq]
    exact rel_refl (fun _ => rfl) _

/-- A tagged object does not care for order if its variants do not. -/
theorem tagged_orderless (title : String) (depth : Nat) :
    Orderless Eq ((tagged title tag variants).alone depth) := by
  have heq : (tagged title tag variants).alone depth =
      fun v => Json.within depth (taggedOf tag variants (depth - 1) v) :=
    funext fun v => alone_eq (tagged_settles title v)
  rw [heq]
  exact (taggedOf_orderless hvariants).within depth

/-- The members of a tagged object may come in any order, the tag among them. -/
theorem tagged_unordered (title : String) (depth : Nat) :
    Unordered Eq ((tagged title tag variants).alone depth) := by
  intro ms ns h
  rw [alone_eq (tagged_settles title _), alone_eq (tagged_settles title _)]
  exact rel_within depth (taggedOf_unordered hvariants ms ns h)

end TaggedObjects

end Decoders

end Decoder

end ScriptSandbox.Json
