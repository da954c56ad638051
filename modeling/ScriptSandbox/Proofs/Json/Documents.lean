import ScriptSandbox.Proofs.Json.Spelling

/-!
# Documents that are kept or passed over

A document that nothing is known about is kept with its numbers as they are read, if none of them is
too large and its containers do not lie deeper than there are levels left (`readAny_settles`). A member
that nobody asks for is passed over with all it has, whatever its numbers and at any depth
(`ignoreValue_settles`).
-/

namespace ScriptSandbox.Json

/-! ## Documents that are kept -/

mutual

/-- A document whose numbers have been read, as it is kept. -/
def Document.value : Document Number → Value
  | .null => .null
  | .bool b => .bool b
  | .number n => .number n
  | .text s => .text s
  | .list vs => .list (keptItems vs)
  | .object ms => .object (keptMembers ms)

def keptItems : List (Document Number) → List Value
  | [] => []
  | v :: vs => v.value :: keptItems vs

def keptMembers : List (String × Document Number) → List (String × Value)
  | [] => []
  | (k, v) :: ms => (k, v.value) :: keptMembers ms

end

@[simp] theorem keptItems_eq (vs : List (Document Number)) : keptItems vs = vs.map Document.value := by
  induction vs with
  | nil => rfl
  | cons v vs ih => rw [keptItems, ih, List.map_cons]

@[simp] theorem keptMembers_eq (ms : List (String × Document Number)) :
    keptMembers ms = ms.map fun m => (m.1, m.2.value) := by
  induction ms with
  | nil => rfl
  | cons m ms ih => rw [keptMembers, ih, List.map_cons]

theorem Document.value_list (vs : List (Document Number)) :
    (Document.list vs).value = .list (vs.map Document.value) := by
  rw [Document.value, keptItems_eq]

theorem Document.value_object (ms : List (String × Document Number)) :
    (Document.object ms).value = .object (ms.map fun m => (m.1, m.2.value)) := by
  rw [Document.value, keptMembers_eq]

/-- A document with its numbers read, if they can be read and it is not too deep. -/
def anyOf : Nat → Written → Option (Document Number)
  | 0, _ => none
  | _ + 1, .null => some .null
  | _ + 1, .bool b => some (.bool b)
  | _ + 1, .number n => n.number?.map .number
  | _ + 1, .text s => some (.text s)
  | depth + 1, .list vs => within (depth + 1) ((vs.mapM (anyOf depth)).map .list)
  | depth + 1, .object ms => within (depth + 1) ((entriesOf (anyOf depth) ms).map .object)

theorem mapM_map {α β γ : Type} (g : α → Option β) (f : β → γ) (as : List α) :
    (as.mapM fun a => (g a).map f) = (as.mapM g).map (List.map f) := by
  induction as with
  | nil => rfl
  | cons a as ih =>
      rw [List.mapM_cons, List.mapM_cons, ih]
      cases g a with
      | none => rfl
      | some b => cases as.mapM g <;> rfl

theorem entriesOf_map {ν α β : Type} (g : Document ν → Option α) (f : α → β)
    (ms : List (String × Document ν)) :
    entriesOf (fun v => (g v).map f) ms = (entriesOf g ms).map (List.map fun m => (m.1, f m.2)) := by
  rw [entriesOf, entriesOf, ← mapM_map]
  refine congrArg (ms.mapM ·) (funext fun m => ?_)
  rw [Option.map_map, Option.map_map]
  rfl

/-- A number is kept as a value. -/
theorem yields_number {n : Numeral} {tail : List Char} {depth : Nat}
    {x : Except Fault (Number × Reader)} (hx : Yields x n.number? tail (depth + 1)) :
    Yields
      (match x with
      | .ok (n, r) => .ok (.number n, r)
      | .error f => .error f)
      ((anyOf (depth + 1) (.number n)).map Document.value) tail (depth + 1) := by
  rw [anyOf, Option.map_map]
  exact hx.map (fun f hf => ⟨f, by rw [hf]⟩) fun a r' hr' => by rw [hr']; rfl

theorem readAny_settles (depth : Nat) (v : Written) :
    Settles (readAny depth) depth v ((anyOf depth v).map Document.value) := by
  induction depth generalizing v with
  | zero =>
      intro L indent r blanks tail _ _ _ _
      exact yields_failAhead ..
  | succ depth ih =>
      intro L indent r blanks tail hblanks hrest htail hdepth
      obtain ⟨hpeek, hchars, hdepth'⟩ := v.ahead hblanks hrest
      have hlevel := hdepth'.trans hdepth
      cases v with
      | null =>
          obtain ⟨r', hread, hbehind, hdepth₁⟩ :=
            readWord_takes "ull".toList (Reader.rest_skip hchars)
          refine ⟨r', ?_, hbehind, hdepth₁.trans ((Reader.depth_skip _).trans hlevel)⟩
          simp only [readAny, hpeek, Document.initial, hread, Document.value]
      | bool b =>
          cases b with
          | true =>
              obtain ⟨r', hread, hbehind, hdepth₁⟩ :=
                readWord_takes "rue".toList (Reader.rest_skip hchars)
              refine ⟨r', ?_, hbehind, hdepth₁.trans ((Reader.depth_skip _).trans hlevel)⟩
              simp only [readAny, hpeek, Document.initial, hread, Document.value]
          | false =>
              obtain ⟨r', hread, hbehind, hdepth₁⟩ :=
                readWord_takes "alse".toList (Reader.rest_skip hchars)
              refine ⟨r', ?_, hbehind, hdepth₁.trans ((Reader.depth_skip _).trans hlevel)⟩
              simp only [readAny, hpeek, Document.initial, hread, Document.value]
      | number n =>
          rw [Layout.chars, Numeral.chars] at hchars
          rcases Document.initial_number_cases n with ⟨hsign, hminus⟩ |
            ⟨hsign, hdigit, hminus, hn, ht, hf, hquote, hbracket, hbrace⟩
          · have hread := readNumber_yields n htail
              (Reader.rest_skip (hchars.trans (by rw [hsign]; rfl)))
            rw [hsign, Reader.depth_skip, hlevel] at hread
            simp only [readAny, hpeek, hminus]
            exact yields_number hread
          · rw [hsign] at hchars
            have hread := readNumber_yields n htail hchars
            rw [hsign, hlevel] at hread
            simp only [readAny, hpeek, hdigit, if_true]
            exact yields_number hread
      | text s =>
          obtain ⟨r', hread, hbehind, hdepth₁⟩ := readString_quote hchars
          refine ⟨r', ?_, hbehind, hdepth₁.trans hlevel⟩
          simp only [readAny, hpeek, Document.initial, hread, Document.value]
      | list vs =>
          rw [anyOf, ← within_map, Option.map_map]
          have hlist : (vs.mapM (anyOf depth)).map (Document.value ∘ Document.list) =
              (vs.mapM fun v => (anyOf depth v).map Document.value).map .list := by
            rw [mapM_map, Option.map_map]
            exact congrArg (Option.map · _) (funext Document.value_list)
          rw [hlist]
          simp only [readAny, hpeek, Document.initial]
          refine readContainer_yields hchars hlevel fun r' hrest' hdepth₁ =>
            Yields.closed ?_ fun _ => closeList_takes
          exact (readItems_all (fun w _ => ih w) hrest' hdepth₁).map
            (fun e he => ⟨e, by simp only [he]⟩) fun ws r₁ hr₁ => by simp only [hr₁]
      | object ms =>
          rw [anyOf, ← within_map, Option.map_map]
          -- Members are kept latest first, and turned round when all are there.
          have hobject : (entriesOf (anyOf depth) ms).map (Document.value ∘ Document.object) =
              ((entriesOf (fun v => (anyOf depth v).map Document.value) ms).map List.reverse).map
                fun ms => .object ms.reverse := by
            rw [entriesOf_map, Option.map_map, Option.map_map]
            refine congrArg (Option.map · _) (funext fun ms => ?_)
            simp [Document.value_object]
          rw [hobject]
          simp only [readAny, hpeek, Document.initial]
          refine readContainer_yields hchars hlevel fun r' hrest' hdepth₁ =>
            Yields.closed ?_ fun _ => closeObject_takes
          generalize hx : readMembers _ (r'.rest.length + 1) true [] r' = x
          refine Yields.map (x := x) ?_ (fun e he => ⟨e, by simp only [he]⟩)
            fun ms r₁ hr₁ => by simp only [hr₁]
          rw [← hx]
          refine readEntries_all (fun k done r => ?_) (fun m _ => ih m.2) hrest' hdepth₁
          simp only [readEntry]
          rcases readColon r with f | ⟨_, r⟩
          · rfl
          · rcases hread : readAny depth r with f | ⟨_, r⟩ <;> simp only [hread]

/-! ## Documents that are passed over -/

namespace Layout

variable (L : Layout)

theorem items_eq {vs : List Written} (h : ∀ v ∈ vs, ∀ indent, JsonText (L.chars indent v))
    (indent : Nat) (first : Bool) :
    ∃ gap es, Blank gap ∧ (∀ e ∈ es, e.label = []) ∧ (∀ e ∈ es, JsonText e.text) ∧
      L.items indent first vs = entriesText ']' first gap es := by
  induction vs generalizing first with
  | nil =>
      exact ⟨_, [], ending_blank L indent first, List.forall_mem_nil _, List.forall_mem_nil _, rfl⟩
  | cons v vs ih =>
      obtain ⟨gap, es, hgap, hlabels, htexts, heq⟩ :=
        ih (fun w hw => h w (List.mem_cons_of_mem _ hw)) false
      refine ⟨[], ⟨L.item (indent + 1), [], L.chars (indent + 1) v, gap, L.item_blank _, hgap⟩ :: es,
        List.forall_mem_nil _, List.forall_mem_cons.mpr ⟨rfl, hlabels⟩,
        List.forall_mem_cons.mpr ⟨h v (List.mem_cons_self ..) _, htexts⟩, ?_⟩
      rw [items, heq]
      cases first <;> rfl

theorem members_eq (indent : Nat) (first : Bool) (ms : List (String × Written)) :
    ∃ gap es, Blank gap ∧
      List.Forall₂ Names (ms.map fun m => (m.1, L.chars (indent + 1) m.2)) es ∧
      L.members indent first ms = entriesText '\x7d' first gap es := by
  induction ms generalizing first with
  | nil => exact ⟨_, [], ending_blank L indent first, .nil, rfl⟩
  | cons m ms ih =>
      obtain ⟨gap, es, hgap, hes, heq⟩ := ih false
      have hlabel : LabelText (quote m.1) (quote m.1 ++ ':' :: L.colon) :=
        ⟨[], L.colon, List.forall_mem_nil _, L.colon_blank, rfl⟩
      refine ⟨[], ⟨L.item (indent + 1), quote m.1 ++ ':' :: L.colon, L.chars (indent + 1) m.2, gap,
          L.item_blank _, hgap⟩ :: es, List.forall_mem_nil _,
        .cons ⟨rfl, _, stringText_quote m.1, hlabel⟩ hes, ?_⟩
      rw [members, heq]
      cases first <;> simp [entriesText, leading, opening]

theorem objectText (indent : Nat) (ms : List (String × Written)) :
    ObjectText (ms.map fun m => (m.1, L.chars (indent + 1) m.2)) (L.chars indent (.object ms)) := by
  obtain ⟨gap, es, hgap, hes, heq⟩ := L.members_eq indent true ms
  exact ⟨gap, es, hgap, hes, by rw [chars, heq]⟩

/-- The text of a document says one value. -/
theorem jsonText (indent : Nat) (v : Written) : JsonText (L.chars indent v) := by
  induction v using Document.induct generalizing indent with
  | null => exact .null
  | bool b =>
      cases b with
      | true => exact .wordTrue
      | false => exact .wordFalse
  | number n => exact .number n
  | text s =>
      obtain ⟨inner, hspelled, hquote⟩ := stringText_quote s
      rw [chars, hquote]
      exact .string hspelled.quoted
  | list vs ih =>
      obtain ⟨gap, es, hgap, hlabels, htexts, heq⟩ := L.items_eq (fun v hv _ => ih v hv _) indent true
      rw [chars, heq]
      exact .list hgap hlabels htexts
  | object ms ih =>
      refine (L.objectText indent ms).jsonText fun _ hm => ?_
      obtain ⟨m, hmem, rfl⟩ := List.mem_map.mp hm
      exact ih m hmem _

end Layout

/-- A document is passed over wherever its text stands. -/
def PassedOver (v : Written) : Prop :=
  ∀ (L : Layout) (indent fuel : Nat) (open_ : List Bool) (r : Reader) (blanks tail : List Char),
    Blank blanks → r.rest = blanks ++ (L.chars indent v ++ tail) → Closes tail →
    2 * r.rest.length ≤ fuel → Passes (ignoreFrom fuel .value open_ r) open_ tail r.depth

/-- Every document is passed over, however deep it is. -/
theorem passedOver (v : Written) : PassedOver v := fun L indent => (L.jsonText indent v).skippable

theorem ignoreValue_settles (depth : Nat) (v : Written) :
    Settles ignoreValue depth v (some ()) := by
  intro L indent r blanks tail hblanks hrest htail hdepth
  obtain ⟨fuel, r', hpass, hbehind, hdepth', -⟩ :=
    passedOver v L indent (2 * r.rest.length + 2) [] r blanks tail hblanks hrest htail (by omega)
  exact ⟨r', hpass, hbehind, hdepth'.trans hdepth⟩

end ScriptSandbox.Json
