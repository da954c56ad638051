import ScriptSandbox.Proofs.Json.Decodes
import ScriptSandbox.Proofs.Json.Documents

/-!
# What is read of records and tagged objects

-/

namespace ScriptSandbox.Json.Decoder

variable {α σ ν : Type} {depth : Nat} {tail : List Char}

@[simp] theorem toOption_ok (a : α) : (Except.ok a : Except Reason α).toOption = some a := rfl

/-! ## Records -/

section Records

variable (fields : List (Field σ)) (g : Field σ → Document ν → Option (σ → σ))

def memberStep (s : σ) (m : String × Document ν) : Option σ :=
  match fieldNamed? fields m.1 with
  | none => some s
  | some f => if f.given s then none else (g f m.2).map (· s)

/-- A draft, if it holds every field that a record needs. -/
def complete (s : σ) : Option σ := if (missing? fields s).isSome then none else some s

/-- A draft that holds the items of a list as its fields in their order. -/
def inOrder : List (Field σ) → σ → List (Document ν) → Option σ
  | [], s, [] => some s
  | [], _, _ :: _ => none
  | f :: fs, s, v :: vs => (g f v).bind fun put => inOrder fs (put s) vs
  | f :: fs, s, [] => if f.required then none else inOrder fs s []

def draftOf (blank : σ) : Document ν → Option σ
  | .list vs => inOrder g fields blank vs
  | .object ms => (ms.foldlM (memberStep fields g) blank).bind (complete fields)
  | _ => none

variable {fields}

theorem mem_of_fieldNamed? {name : String} {f : Field σ} (h : fieldNamed? fields name = some f) :
    f ∈ fields := List.mem_of_find?_eq_some h

/-- The member of a record is read as its field, or passed over. -/
theorem readMember_stepsTo (hfields : ∀ f ∈ fields, f.value.Local) (m : String × Written) :
    StepsTo (readMember fields) depth (memberStep fields fun f => f.value.alone depth) m := by
  intro L indent s r tail hrest htail hdepth
  rw [memberStep, readMember.eq_def]
  cases hname : fieldNamed? fields m.1 with
  | none =>
      obtain ⟨hcolon, hread⟩ := (ignoreValue_settles depth m.2).behindColon hrest htail hdepth
      simp only [hcolon]
      exact hread.map (f := fun _ => s) (fun e he => ⟨e, by simp only [he]⟩)
        fun _ r' hr' => by simp only [hr']
  | some f =>
      simp only
      by_cases hgiven : f.given s = true
      · rw [if_pos hgiven, if_pos hgiven]
        exact ⟨_, rfl⟩
      · rw [if_neg hgiven, if_neg hgiven]
        obtain ⟨hcolon, hread⟩ :=
          (hfields f (mem_of_fieldNamed? hname) depth m.2).behindColon hrest htail hdepth
        exact hread.map (fun e he => ⟨e, by simp only [hcolon, he]⟩)
          fun put r' hr' => by simp only [hcolon, hr']

theorem readInOrder_end (title : String) (total : Nat) (fs : List (Field σ)) (index : Nat) (s : σ)
    {r : Reader} {blanks : List Char} (hblanks : Blank blanks) (hrest : r.rest = blanks ++ ']' :: tail)
    (hdepth : r.depth = depth) :
    Yields (closed closeList (readInOrder title total fs index s r)) (inOrder g fs s []) tail
      depth := by
  induction fs generalizing r blanks with
  | nil =>
      obtain ⟨hbehind, hdepth'⟩ := Reader.skipBlanks_takes hblanks hrest rfl
      refine ⟨r.skipBlanks.skip, ?_, Reader.rest_skip hbehind,
        (Reader.depth_skip _).trans (hdepth'.trans hdepth)⟩
      simp only [readInOrder, closed, closeList, Reader.peek?_eq hbehind]
  | cons f fs ih =>
      obtain ⟨r', hnext, hrest', hdepth'⟩ := nextItem_end (index == 0) hblanks hrest
      rw [inOrder]
      by_cases hrequired : f.required = true
      · rw [if_pos hrequired]
        exact ⟨_, by simp only [readInOrder, hnext, if_pos hrequired, closed]; rfl⟩
      · rw [if_neg hrequired]
        simp only [readInOrder, hnext, if_neg hrequired]
        exact ih (List.forall_mem_nil _) hrest' (hdepth'.trans hdepth)

theorem closeList_left {L : Layout} {indent : Nat} {first : Bool} {v : Written}
    {r : Reader}
    (hrest : r.rest = Layout.opening first ++ (L.item (indent + 1) ++ (L.chars (indent + 1) v ++ tail))) :
    ∃ f r', closeList r = (some f, r') := by
  have hfail (reason : Reason) (r : Reader) :
      ∃ f, (r.failAhead reason : Except Fault Unit) = .error f := by
    rcases h : (r.failAhead reason : Except Fault Unit) with f | u
    · exact ⟨f, rfl⟩
    · exact absurd h Reader.failAhead_ne_ok
  have hbracket := v.initial_ne_bracket
  have hcomma := v.initial_ne_comma
  cases first with
  | true =>
      obtain ⟨hpeek, -⟩ := v.ahead (L.item_blank (indent + 1)) hrest
      obtain ⟨f, hf⟩ := hfail .trailingText r.skipBlanks
      refine ⟨f, r.skipBlanks, ?_⟩
      simp only [closeList, hpeek, hf]
  | false =>
      obtain ⟨hpeek, -⟩ := v.ahead (L.item_blank (indent + 1)) (Reader.rest_skip hrest)
      obtain ⟨f, hf⟩ := hfail .trailingText r.skip.skipBlanks
      refine ⟨f, r.skip.skipBlanks, ?_⟩
      simp only [closeList, Reader.skipBlanks_eq hrest rfl, Reader.peek?_eq hrest, hpeek, hf]
      split
      · next hc => exact absurd (Option.some.inj hc) hbracket
      · rfl

theorem readInOrder_yields (title : String) (total : Nat) {L : Layout} {indent : Nat}
    {fs : List (Field σ)} (hfields : ∀ f ∈ fs, f.value.Local) {vs : List Written} (index : Nat) (s : σ) {r : Reader}
    (hrest : r.rest = L.items indent (index == 0) vs ++ tail) (hdepth : r.depth = depth) :
    Yields (closed closeList (readInOrder title total fs index s r))
      (inOrder (fun f => f.value.alone depth) fs s vs) tail depth := by
  induction fs generalizing vs index s r with
  | nil =>
      cases vs with
      | nil =>
          rw [Layout.items, List.append_assoc] at hrest
          exact readInOrder_end _ title total [] index s (ending_blank L indent _) hrest hdepth
      | cons v vs =>
          obtain ⟨f, r', hclose⟩ := closeList_left
            (show r.rest = Layout.opening (index == 0) ++ (L.item (indent + 1) ++
              (L.chars (indent + 1) v ++ (L.items indent false vs ++ tail))) by
                rw [hrest, Layout.items]; simp)
          exact ⟨f, by simp only [readInOrder, closed, hclose]⟩
  | cons f fs ih =>
      cases vs with
      | nil =>
          rw [Layout.items, List.append_assoc] at hrest
          exact readInOrder_end _ title total (f :: fs) index s (ending_blank L indent _) hrest hdepth
      | cons v vs =>
          obtain ⟨r₁, hnext, hrest₁, hdepth₁⟩ := item_ahead hrest
          have hvalue := hfields f (List.mem_cons_self ..) depth v L (indent + 1) r₁ [] _
            (List.forall_mem_nil _) hrest₁ (closes_items L indent vs tail) (hdepth₁.trans hdepth)
          rw [inOrder]
          refine hvalue.bind (fun e he => ⟨e, by simp only [readInOrder, hnext, he, closed]⟩) ?_
          intro put r₂ hr₂ hrest₂ hdepth₂
          simp only [readInOrder, hnext, hr₂]
          exact ih (fun f hf => hfields f (List.mem_cons_of_mem _ hf)) (index + 1) (put s) hrest₂ hdepth₂

def keptOf (f : Field σ) (v : Document Number) : Option (σ → σ) := (f.value.ofValue v.value).toOption

theorem toOption_fillInOrder (title : String) (total : Nat) (fs : List (Field σ)) (index : Nat)
    (s : σ) (vs : List (Document Number)) :
    (fillInOrder title total fs index s (vs.map Document.value)).toOption =
      inOrder keptOf fs s vs := by
  induction fs generalizing vs index s with
  | nil => cases vs <;> rfl
  | cons f fs ih =>
      cases vs with
      | nil =>
          rw [List.map_nil, fillInOrder, inOrder]
          split
          · rfl
          · exact ih index s []
      | cons v vs =>
          rw [List.map_cons, fillInOrder, inOrder, keptOf]
          cases f.value.ofValue v.value with
          | error e => rfl
          | ok put => exact ih (index + 1) (put s) vs

theorem toOption_fill (s : σ) (ms : List (String × Document Number)) :
    (fill fields s (ms.map fun m => (m.1, m.2.value))).toOption =
      ms.foldlM (memberStep fields keptOf) s := by
  induction ms generalizing s with
  | nil => rfl
  | cons m ms ih =>
      rw [List.map_cons, fill, List.foldlM_cons, memberStep]
      cases fieldNamed? fields m.1 with
      | none => exact ih s
      | some f =>
          simp only [keptOf]
          cases f.given s with
          | true => rfl
          | false =>
              cases f.value.ofValue m.2.value with
              | error e => rfl
              | ok put => exact ih (put s)

/-- Filling a draft from a document that has been kept is filling it in the same steps. -/
theorem toOption_draftOfValue (title : String) (blank : σ) (v : Document Number) :
    (draftOfValue title fields blank v.value).toOption = draftOf fields keptOf blank v := by
  cases v with
  | list vs =>
      rw [draftOf, Document.value_list, draftOfValue]
      exact toOption_fillInOrder title fields.length fields 0 blank vs
  | object ms =>
      rw [draftOf, Document.value_object, draftOfValue, ← toOption_fill]
      cases fill fields blank (ms.map fun m => (m.1, m.2.value)) with
      | error e => rfl
      | ok s =>
          simp only [bind, Except.bind, Except.toOption, Option.bind, complete]
          cases missing? fields s <;> rfl
  | _ => rfl

theorem toOption_variantRecord (title : String) (blank : σ) (finish : σ → α) (v : Document Number) :
    (Variant.record title fields blank finish v.value).toOption =
      (draftOf fields keptOf blank v).map finish := by
  rw [← toOption_draftOfValue title, Variant.record]
  cases draftOfValue title fields blank v.value <;> rfl

theorem toOption_onlyField {β : Type} {name : String} {d : Decoder β} (title : String)
    (finish : Option β → α) {v : Document Number} {b : β} (h : (d.ofValue v.value).toOption = some b) :
    (Variant.record title [Field.of name true d id fun x _ => some x] none finish
      (Document.object [(name, v)]).value).toOption = some (finish (some b)) := by
  rw [toOption_variantRecord]
  simp [draftOf, memberStep, fieldNamed?, Field.of, keptOf, toOption_ofValue_map, h, complete, missing?]

theorem record_settles (hfields : ∀ f ∈ fields, f.value.Local) (title : String) (blank : σ)
    (finish : σ → α) (v : Written) :
    Settles (record title fields blank finish).read depth v
      ((within depth (draftOf fields (fun f => f.value.alone (depth - 1)) blank v)).map finish) := by
  simp only [record]
  refine Settles.aheadOr fun L indent r tail hrest _ hdepth => ?_
  by_cases hbracket : v.initial = '['
  · obtain ⟨vs, rfl⟩ := Document.eq_list hbracket
    rw [if_pos (by simpa using hbracket)]
    generalize hx : readContainer closeList _ r = x
    refine Yields.map (x := x) ?_ (fun e he => ⟨e, by simp only [he]⟩)
      fun s r' hr' => by simp only [hr']
    rw [← hx]
    exact readContainer_yields hrest hdepth fun r' hrest' hdepth' =>
      readInOrder_yields title fields.length hfields 0 blank hrest' hdepth'
  · rw [if_neg (by simpa using hbracket)]
    by_cases hbrace : v.initial = '\x7b'
    · obtain ⟨ms, rfl⟩ := Document.eq_object hbrace
      rw [if_pos (by simpa using hbrace)]
      generalize hx : readContainer closeObject _ r = x
      refine Yields.map (x := x) ?_ (fun e he => ⟨e, by simp only [he]⟩)
        fun s r' hr' => by simp only [hr']
      rw [← hx]
      refine readContainer_yields hrest hdepth fun r' hrest' hdepth' =>
        Yields.closed ?_ fun _ => closeObject_takes
      refine (readMembers_all (fun m _ => readMember_stepsTo hfields m) blank hrest'
        hdepth').bind (fun e he => ⟨e, by simp only [he]⟩) ?_
      intro s r₁ hr₁ hrest₁ hdepth₁
      simp only [hr₁, complete]
      cases missing? fields s with
      | none => exact ⟨r₁, rfl, hrest₁, hdepth₁⟩
      | some name => exact ⟨_, rfl⟩
    · rw [if_neg (by simpa using hbrace)]
      have hnone : draftOf fields (fun f => f.value.alone (depth - 1)) blank v = none := by
        cases v with
        | list vs => exact absurd rfl hbracket
        | object ms => exact absurd rfl hbrace
        | _ => rfl
      rw [hnone, within_none]
      exact yields_wrongTypeAhead ..

theorem record_alone (hfields : ∀ f ∈ fields, f.value.Local) (title : String) (blank : σ)
    (finish : σ → α) (v : Written) (hdepth : 1 < depth) :
    (record title fields blank finish).alone depth v =
      (draftOf fields (fun f => f.value.alone (depth - 1)) blank v).map finish := by
  rw [alone_eq (record_settles hfields title blank finish v), within,
    if_neg (Nat.not_le_of_gt hdepth)]

end Records

/-! ## Tagged objects -/

section TaggedObjects

variable (tag : String) (variants : List (String × Variant α))

/-- The variant behind a tag; there must not be two. -/
def tagStep (x? : Option (Variant α)) (m : String × Written) : Option (Option (Variant α)) :=
  if x?.isSome then none else (variantOf variants m.2).map some

/-- What a tagged object holds behind a member. -/
def taggedStep (depth : Nat) (s : Tagged α) (m : String × Written) : Option (Tagged α) :=
  if m.1 == tag then (tagStep variants s.variant m).map fun x? => ⟨x?, s.others⟩
  else (anyOf depth m.2).map fun v => ⟨s.variant, (m.1, v.value) :: s.others⟩

def tags (ms : List (String × Written)) : List (String × Written) := ms.filter (·.1 == tag)

/-- The members beside the tag. -/
def others (ms : List (String × Written)) : List (String × Written) := ms.filter (·.1 != tag)

/-- The tags and the other members are read apart. -/
theorem foldlM_tagged (depth : Nat) (ms : List (String × Written)) (s : Tagged α) :
    ms.foldlM (taggedStep tag variants depth) s =
      ((tags tag ms).foldlM (tagStep variants) s.variant).bind fun x? =>
        (entriesOf (anyOf depth) (others tag ms)).map fun es =>
          ⟨x?, (es.map fun m => (m.1, m.2.value)).reverse ++ s.others⟩ := by
  induction ms generalizing s with
  | nil => rfl
  | cons m ms ih =>
      rw [List.foldlM_cons, taggedStep]
      by_cases htag : (m.1 == tag) = true
      · have htags : tags tag (m :: ms) = m :: tags tag ms := List.filter_cons_of_pos htag
        have hothers : others tag (m :: ms) = others tag ms := by
          refine List.filter_cons_of_neg ?_
          simpa [bne] using htag
        rw [if_pos htag, htags, hothers, List.foldlM_cons]
        cases tagStep variants s.variant m with
        | none => rfl
        | some x? => exact ih ⟨x?, s.others⟩
      · have htags : tags tag (m :: ms) = tags tag ms := List.filter_cons_of_neg htag
        have hothers : others tag (m :: ms) = m :: others tag ms := by
          refine List.filter_cons_of_pos ?_
          simpa [bne] using htag
        rw [if_neg htag, htags, hothers, entriesOf, List.mapM_cons]
        cases anyOf depth m.2 with
        | none => cases (tags tag ms).foldlM (tagStep variants) s.variant <;> rfl
        | some v =>
            refine (ih ⟨s.variant, (m.1, v.value) :: s.others⟩).trans ?_
            rw [entriesOf]
            cases (tags tag ms).foldlM (tagStep variants) s.variant with
            | none => rfl
            | some x? => cases (others tag ms).mapM fun m => (anyOf depth m.2).map (m.1, ·) <;> simp

variable {tag variants}

theorem readTaggedMember_stepsTo (m : String × Written) :
    StepsTo (readTaggedMember tag variants) depth (taggedStep tag variants depth) m := by
  intro L indent s r tail hrest htail hdepth
  rw [taggedStep, readTaggedMember]
  by_cases htag : (m.1 == tag) = true
  · rw [if_pos htag, if_pos htag, tagStep]
    by_cases hgiven : s.variant.isSome = true
    · rw [if_pos hgiven, if_pos hgiven]
      exact ⟨_, rfl⟩
    · rw [if_neg hgiven, if_neg hgiven, Option.map_map]
      obtain ⟨hcolon, hread⟩ := (readVariant_settles variants).behindColon hrest htail hdepth
      simp only [hcolon, bind, Except.bind]
      exact hread.map (fun e he => ⟨e, by simp only [he]⟩) fun x r' hr' => by simp only [hr']; rfl
  · rw [if_neg htag, if_neg htag]
    obtain ⟨hcolon, hread⟩ := (readAny_settles depth m.2).behindColon hrest htail hdepth
    have hlevel : r.skip.depth = depth := r.depth_skip.trans hdepth
    have hmap : (anyOf depth m.2).map (fun v => (⟨s.variant, (m.1, v.value) :: s.others⟩ : Tagged α)) =
        ((anyOf depth m.2).map Document.value).map fun v => ⟨s.variant, (m.1, v) :: s.others⟩ := by
      rw [Option.map_map]
      rfl
    rw [hmap]
    simp only [hcolon, bind, Except.bind, hlevel]
    exact hread.map (fun e he => ⟨e, by simp only [he]⟩) fun v r' hr' => by simp only [hr']; rfl

/-- The variant that a tagged object names, and what is kept of what remains beside the tag. -/
def variantAndRest (tag : String) (variants : List (String × Variant α)) (depth : Nat) :
    Written → Option (Variant α × Document Number)
  | .object ms =>
    ((tags tag ms).foldlM (tagStep variants) none).bind fun x? =>
      x?.bind fun x =>
        (entriesOf (anyOf depth) (others tag ms)).map fun es => (x, .object es)
  | .list (v :: vs) =>
    (variantOf variants v).bind fun x => (vs.mapM (anyOf depth)).map fun vs => (x, .list vs)
  | _ => none

def taggedOf (tag : String) (variants : List (String × Variant α)) (depth : Nat) (v : Written) :
    Option α :=
  (variantAndRest tag variants depth v).bind fun (x, v) => (x v.value).toOption

def keptRest (x : Variant α × Document Number) : Variant α × Value := (x.1, x.2.value)

theorem map_keptRest_object (depth : Nat) (ms : List (String × Written)) :
    (variantAndRest tag variants depth (.object ms)).map keptRest =
      (ms.foldlM (taggedStep tag variants depth) {}).bind fun s =>
        s.variant.map fun x => (x, Value.object s.others.reverse) := by
  rw [variantAndRest, foldlM_tagged]
  cases (tags tag ms).foldlM (tagStep variants) none with
  | none => rfl
  | some x? =>
      cases entriesOf (anyOf depth) (others tag ms) with
      | none => cases x? <;> rfl
      | some es =>
          cases x? with
          | none => rfl
          | some x => simp [keptRest, Document.value_object]

theorem map_keptRest_list (depth : Nat) (v : Written) (vs : List Written) :
    (variantAndRest tag variants depth (.list (v :: vs))).map keptRest =
      (variantOf variants v).bind fun x =>
        (vs.mapM fun v => (anyOf depth v).map Document.value).map fun vs => (x, Value.list vs) := by
  rw [variantAndRest, mapM_map]
  cases variantOf variants v with
  | none => rfl
  | some x => cases vs.mapM (anyOf depth) <;> simp [keptRest, Document.value_list]

theorem taggedOf_eq (depth : Nat) (v : Written) :
    taggedOf tag variants depth v =
      ((variantAndRest tag variants depth v).map keptRest).bind fun (x, v) => (x v).toOption := by
  rw [taggedOf, Option.bind_map]
  rfl

/-- What has been read of a tagged object stands for what the variant makes of it. -/
theorem yields_variant {x : Except Fault ((Variant α × Value) × Reader)}
    {xv? : Option (Variant α × Value)} {tail : List Char} (hx : Yields x xv? tail depth) :
    Yields
      (match x with
      | .error f => .error f
      | .ok ((variant, v), r) =>
        match variant v with
        | .ok a => .ok (a, r)
        | .error e => .error (.loose e r))
      (xv?.bind fun (x, v) => (x v).toOption) tail depth := by
  refine hx.bind (fun e he => ⟨e, by simp only [he]⟩) fun xv r' hr' hrest' hdepth' => ?_
  simp only [hr']
  cases xv.1 xv.2 with
  | ok a => exact ⟨r', rfl, hrest', hdepth'⟩
  | error e => exact ⟨_, rfl⟩

theorem tagged_settles (title : String) (v : Written) :
    Settles (tagged title tag variants).read depth v
      (within depth (taggedOf tag variants (depth - 1) v)) := by
  rw [taggedOf_eq, within_bind]
  simp only [tagged]
  refine Settles.aheadOr fun L indent r tail hrest _ hdepth => ?_
  by_cases hbracket : v.initial = '['
  · obtain ⟨vs, rfl⟩ := Document.eq_list hbracket
    rw [if_pos (by simpa using hbracket)]
    refine yields_variant ?_
    refine readContainer_yields hrest hdepth fun r' hrest' hdepth' =>
      Yields.closed ?_ fun _ => closeList_takes
    cases vs with
    | nil =>
        obtain ⟨r₁, hnext, -⟩ := nextItem_end true (List.forall_mem_nil _) hrest'
        exact ⟨_, by simp only [hnext]; rfl⟩
    | cons w vs =>
        obtain ⟨r₁, hnext, hrest₁, hdepth₁⟩ := item_ahead hrest'
        rw [map_keptRest_list]
        simp only [hnext]
        refine (readVariant_settles variants L (indent + 1) r₁ [] _ (List.forall_mem_nil _) hrest₁
          (closes_items L indent vs _) (hdepth₁.trans hdepth')).bind
            (fun e he => ⟨e, by simp only [he]⟩) ?_
        intro x r₂ hr₂ hrest₂ hdepth₂
        simp only [hr₂]
        generalize hx : readItems _ (r₂.rest.length + 1) false [] r₂ = y
        refine Yields.map (x := y) ?_ (fun e he => ⟨e, by simp only [he]⟩)
          fun us r₃ hr₃ => by simp only [hr₃]
        rw [← hx]
        refine readItems_all (fun u _ => ?_) hrest₂ hdepth₂
        intro L indent r blanks tail hblanks hrest htail hdepth
        simp only [hdepth]
        exact readAny_settles _ u L indent r blanks tail hblanks hrest htail hdepth
  · rw [if_neg (by simpa using hbracket)]
    by_cases hbrace : v.initial = '\x7b'
    · obtain ⟨ms, rfl⟩ := Document.eq_object hbrace
      rw [if_pos (by simpa using hbrace)]
      refine yields_variant ?_
      refine readContainer_yields hrest hdepth fun r' hrest' hdepth' =>
        Yields.closed ?_ fun _ => closeObject_takes
      rw [map_keptRest_object]
      refine (readMembers_all (fun m _ => readTaggedMember_stepsTo m) {} hrest'
        hdepth').bind (fun e he => ⟨e, by simp only [he]⟩) ?_
      rintro ⟨x?, others⟩ r₁ hr₁ hrest₁ hdepth₁
      simp only [hr₁]
      cases x? with
      | none => exact ⟨_, rfl⟩
      | some x => exact ⟨r₁, rfl, hrest₁, hdepth₁⟩
    · rw [if_neg (by simpa using hbrace)]
      have hnone : variantAndRest tag variants (depth - 1) v = none := by
        cases v with
        | list vs => exact absurd rfl hbracket
        | object ms => exact absurd rfl hbrace
        | _ => rfl
      rw [hnone, Option.map_none, within_none]
      exact yields_wrongTypeAhead ..

/-- An object that begins with its tag stands for what the variant makes of the other members. -/
theorem taggedOf_tag {name : String} {x : Variant α} (hname : pick variants name = .ok x)
    (depth : Nat) {ms : List (String × Written)} (hms : ∀ m ∈ ms, m.1 ≠ tag) :
    taggedOf tag variants depth (.object ((tag, .text name) :: ms)) =
      (entriesOf (anyOf depth) ms).bind fun es => (x (Document.object es).value).toOption := by
  have htags : tags tag ((tag, .text name) :: ms) = [(tag, .text name)] := by
    have hnone : ms.filter (·.1 == tag) = [] :=
      List.filter_eq_nil_iff.mpr fun m hm => by simpa using hms m hm
    rw [tags, List.filter_cons_of_pos (by simp), hnone]
  have hothers : others tag ((tag, .text name) :: ms) = ms := by
    rw [others, List.filter_cons_of_neg (by simp)]
    exact List.filter_eq_self.mpr fun m hm => by simpa using hms m hm
  simp only [taggedOf, variantAndRest, htags, hothers, List.foldlM_cons, tagStep, variantOf, hname]
  cases entriesOf (anyOf depth) ms <;> rfl

/-- Where a level is left, a tagged object is what its variant makes of what remains. -/
theorem tagged_alone (title : String) (v : Written) (hdepth : 1 < depth) :
    (tagged title tag variants).alone depth v = taggedOf tag variants (depth - 1) v := by
  rw [alone_eq (tagged_settles title v), within, if_neg (Nat.not_le_of_gt hdepth)]

end TaggedObjects

end ScriptSandbox.Json.Decoder
