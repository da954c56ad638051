import ScriptSandbox.Proofs.Json.Settles

/-!
# What decoders read of documents

What a decoder reads of a document is the same wherever the document's text stands (`Decoder.Local`),
so it can be said without the text: a list is read item by item (`list_settles`), an object with any
keys member by member (`members_settles`), and a name is looked up (`names_settles`). Local decoders
read a whole text as if the document stood alone (`run_text`).
-/

namespace ScriptSandbox.Json.Decoder

variable {α β σ ν : Type}

/-- What a decoder reads of a document, with so many levels left. -/
def alone (d : Decoder α) (depth : Nat) (v : Written) : Option α :=
  match d.read ⟨Layout.compact.chars 0 v, 1, 0, depth⟩ with
  | .ok (a, _) => some a
  | .error _ => none

/-- A decoder reads the same of a document's text wherever it stands. -/
def Local (d : Decoder α) : Prop :=
  ∀ (depth : Nat) (v : Written), Settles d.read depth v (d.alone depth v)

section

variable {d : Decoder α} {depth : Nat} {v : Written} {a? : Option α}

theorem alone_eq (h : Settles d.read depth v a?) : d.alone depth v = a? := by
  have hrest : Layout.compact.chars 0 v = [] ++ (Layout.compact.chars 0 v ++ []) := by
    rw [List.append_nil, List.nil_append]
  have hread := h Layout.compact 0 ⟨Layout.compact.chars 0 v, 1, 0, depth⟩ [] []
    (List.forall_mem_nil _) hrest closes_nil rfl
  rw [alone]
  cases a? with
  | none =>
      obtain ⟨f, hf⟩ := hread
      rw [hf]
  | some a =>
      obtain ⟨r, hr, -⟩ := hread
      rw [hr]

theorem Local.of_settles (h : ∀ depth v, ∃ a?, Settles d.read depth v a?) : d.Local := by
  intro depth v
  obtain ⟨a?, hsettles⟩ := h depth v
  rw [alone_eq hsettles]
  exact hsettles

/-- A whole text of a document is decoded as what is read of the document. -/
theorem Local.run_text (h : d.Local) (L : Layout) (v : Written) :
    (d.run (L.text v)).toOption = d.alone 128 v := by
  have hrest : (Reader.start (L.text v)).rest = [] ++ (L.chars 0 v ++ []) := by
    rw [Reader.start, Layout.text, String.toList_ofList, List.append_nil]
    rfl
  have hread := h 128 v L 0 _ [] [] (List.forall_mem_nil _) hrest closes_nil rfl
  rw [run]
  cases halone : d.alone 128 v with
  | none =>
      rw [halone] at hread
      obtain ⟨f, hf⟩ := hread
      rw [hf]
      rfl
  | some a =>
      rw [halone] at hread
      obtain ⟨r, hr, hend, -⟩ := hread
      have hblanks : r.skipBlanks = r := by
        rw [Reader.skipBlanks, hend]
        rfl
      rw [hr]
      simp only [hblanks, hend]
      rfl

/-- Both texts of a document are decoded, if it is read where it stands alone. -/
theorem Local.run_eq (h : d.Local) {v : Value} (hv : v.Whole) {a : α}
    (ha : d.alone 128 v.written = some a) {s : String} (hs : s ∈ v.texts) : d.run s = .ok a := by
  obtain ⟨L, rfl⟩ := hv.mem_texts hs
  have hsome := (h.run_text L v.written).trans ha
  cases hrun : d.run (L.text v.written) with
  | error f => rw [hrun] at hsome; cases hsome
  | ok b => rw [hrun] at hsome; exact congrArg _ (Option.some.inj hsome)

theorem run_map (f : α → β) (s : String) : (d.map f).run s = (d.run s).map f := by
  simp only [Decoder.run, Decoder.map]
  cases d.read (Reader.start s) with
  | error e => rfl
  | ok read =>
      simp only
      split
      · rfl
      · exact (Reader.map_failAhead f ..).symm

end

/-! ## Strings, numbers, and values that may be absent -/

section Leaves

variable {d : Decoder α} {depth : Nat} {v : Written}

theorem alone_map (f : α → β) : (d.map f).alone depth v = (d.alone depth v).map f := by
  simp only [alone, map]
  cases d.read ⟨Layout.compact.chars 0 v, 1, 0, depth⟩ <;> rfl

theorem toOption_ofValue_map (f : α → β) (v : Value) :
    ((d.map f).ofValue v).toOption = (d.ofValue v).toOption.map f := by
  simp only [map]
  cases d.ofValue v <;> rfl

theorem map_settles {a? : Option α} (h : Settles d.read depth v a?) (f : α → β) :
    Settles (d.map f).read depth v (a?.map f) := by
  intro L indent r blanks tail hblanks hrest htail hdepth
  refine (h L indent r blanks tail hblanks hrest htail hdepth).map ?_ ?_
  · exact fun e he => ⟨e, by simp only [map, he]⟩
  · exact fun a r' hr' => by simp only [map, hr']

def textOf : Document ν → Option String
  | .text s => some s
  | _ => none

theorem text_settles : Settles text.read depth v (textOf v) := by
  simp only [text]
  refine Settles.aheadOr fun L indent r tail hrest _ hdepth => ?_
  by_cases hquote : v.initial = '"'
  · obtain ⟨s, rfl⟩ := Document.eq_text hquote
    obtain ⟨r', hread, hrest', hdepth'⟩ := readString_quote hrest
    exact ⟨r', hread, hrest', hdepth'.trans hdepth⟩
  · rw [if_neg (by simpa using hquote)]
    cases v with
    | text s => exact absurd rfl hquote
    | _ => exact yields_wrongTypeAhead ..

theorem text_local : text.Local := .of_settles fun _ _ => ⟨_, text_settles⟩

theorem text_alone (depth : Nat) (s : String) : text.alone depth (.text s) = some s :=
  alone_eq text_settles

def natural? : Number → Option Nat
  | .natural n => some n
  | _ => none

def naturalOf : Written → Option Nat
  | .number n => n.number?.bind natural?
  | _ => none
theorem yields_natural (kind : String) {n : Numeral} {tail : List Char}
    {x : Except Fault (Number × Reader)} (hx : Yields x n.number? tail depth) :
    Yields
      (match x with
      | .error f => .error f
      | .ok (.natural n, r) => .ok (n, r)
      | .ok (.negative n, r) => r.fail (.wrongValue (.integer (-(n + 1 : Nat))) kind)
      | .ok (.real x, r) => r.fail (.wrongType (.real x) kind))
      (naturalOf (.number n)) tail depth := by
  refine hx.bind (fun f hf => ⟨f, by rw [hf]⟩) fun a r' hr' hrest' hdepth' => ?_
  rw [hr']
  cases a with
  | natural n => exact ⟨r', rfl, hrest', hdepth'⟩
  | negative n => exact ⟨_, rfl⟩
  | real x => exact ⟨_, rfl⟩

theorem natural_settles (kind : String) : Settles (natural kind).read depth v (naturalOf v) := by
  simp only [natural]
  refine Settles.aheadOr fun L indent r tail hrest htail hdepth => ?_
  cases v with
  | number n =>
      rw [Layout.chars, Numeral.chars] at hrest
      rcases Document.initial_number_cases n with ⟨hsign, hminus⟩ | ⟨hsign, hdigit, hminus, -⟩
      · have hread := readNumber_yields n htail (Reader.rest_skip (hrest.trans (by rw [hsign]; rfl)))
        rw [hsign, Reader.depth_skip, hdepth] at hread
        rw [hminus]
        exact yields_natural kind hread
      · rw [hsign] at hrest
        have hread := readNumber_yields n htail hrest
        rw [hsign, hdepth] at hread
        simp only [beq_eq_false_iff_ne.mpr hminus, hdigit, Bool.false_eq_true, if_false, if_true]
        exact yields_natural kind hread
  | bool b => cases b <;> exact yields_wrongTypeAhead ..
  | _ => exact yields_wrongTypeAhead ..

theorem natural_local (kind : String) : (natural kind).Local :=
  .of_settles fun _ _ => ⟨_, natural_settles kind⟩

theorem natural_alone (kind : String) (depth : Nat) {n : Nat} (hn : n < Nat.pow 2 64) :
    (natural kind).alone depth (.number (.plain false n)) = some n := by
  rw [alone_eq (natural_settles kind), naturalOf, number?_plain hn]
  rfl

/-- A value or null, of a document. -/
def optionOf (g : Document ν → Option α) : Document ν → Option (Option α)
  | .null => some none
  | v => (g v).map some

theorem option_settles {g : Written → Option α} (h : Settles d.read depth v (g v)) :
    Settles d.option.read depth v (optionOf g v) := by
  intro L indent r blanks tail hblanks hrest htail hdepth
  obtain ⟨hpeek, hchars, hdepth'⟩ := v.ahead hblanks hrest
  by_cases hn : v.initial = 'n'
  · obtain rfl := Document.eq_null hn
    obtain ⟨r', hread, hbehind, hdepth''⟩ :=
      readWord_takes "ull".toList (Reader.rest_skip hchars)
    refine ⟨r', ?_, hbehind, ?_⟩
    · simp only [option, hpeek, Document.initial, hread]
    · rw [hdepth'', Reader.depth_skip, hdepth', hdepth]
  · have hsome : optionOf g v = (g v).map some := by
      cases v with
      | null => exact absurd rfl hn
      | _ => rfl
    have hread : d.option.read r = (d.map some).read r.skipBlanks := by
      simp only [option, hpeek]
      split
      · next hc => exact absurd (Option.some.inj hc) hn
      · rfl
    rw [hsome, hread]
    exact map_settles h some L indent r.skipBlanks [] tail (List.forall_mem_nil _) hchars htail
      (hdepth'.trans hdepth)

theorem option_alone_text (depth : Nat) (s : String) :
    text.option.alone depth (.text s) = some (some s) :=
  alone_eq (option_settles text_settles)

end Leaves

/-! ## Lists and objects with any keys -/

section Containers

variable {d : Decoder α} {depth : Nat} {v : Written}

/-- The items of a list, each read by itself. -/
def listOf (g : Document ν → Option α) : Document ν → Option (List α)
  | .list vs => vs.mapM g
  | _ => none

/-- The members of an object, each read by itself. -/
def membersOf (g : Document ν → Option α) : Document ν → Option (List (String × α))
  | .object ms => entriesOf g ms
  | _ => none

theorem list_settles (h : d.Local) :
    Settles d.list.read depth v (within depth (listOf (d.alone (depth - 1)) v)) := by
  simp only [list]
  refine Settles.aheadOr fun L indent r tail hrest _ hdepth => ?_
  by_cases hbracket : v.initial = '['
  · obtain ⟨vs, rfl⟩ := Document.eq_list hbracket
    rw [if_pos (by simpa using hbracket)]
    refine readContainer_yields hrest hdepth fun r' hrest' hdepth' => ?_
    exact (readItems_all (fun w _ => h _ w) hrest' hdepth').closed fun _ => closeList_takes
  · rw [if_neg (by simpa using hbracket)]
    cases v with
    | list vs => exact absurd rfl hbracket
    | _ =>
        rw [listOf, within_none]
        · exact yields_wrongTypeAhead ..
        all_goals simp

theorem members_settles (h : d.Local) :
    Settles d.members.read depth v (within depth (membersOf (d.alone (depth - 1)) v)) := by
  simp only [members]
  refine Settles.aheadOr fun L indent r tail hrest _ hdepth => ?_
  by_cases hbrace : v.initial = '\x7b'
  · obtain ⟨ms, rfl⟩ := Document.eq_object hbrace
    rw [if_pos (by simpa using hbrace)]
    have hreverse : membersOf (d.alone (depth - 1)) (.object ms) =
        ((entriesOf (d.alone (depth - 1)) ms).map List.reverse).map List.reverse := by
      rw [membersOf]
      cases entriesOf (d.alone (depth - 1)) ms <;> simp
    rw [hreverse, within_map]
    generalize hx : readContainer closeObject _ r = x
    refine Yields.map (x := x) ?_ (fun e he => ⟨e, by simp only [he]⟩)
      fun ms r' hr' => by simp only [hr']
    rw [← hx]
    refine readContainer_yields hrest hdepth fun r' hrest' hdepth' => ?_
    exact (readEntries_all (fun _ _ _ => rfl) (fun m _ => h _ m.2) hrest' hdepth').closed
      fun _ => closeObject_takes
  · rw [if_neg (by simpa using hbrace)]
    cases v with
    | object ms => exact absurd rfl hbrace
    | _ =>
        rw [membersOf, within_none]
        · exact yields_wrongTypeAhead ..
        all_goals simp

theorem members_local (h : d.Local) : d.members.Local :=
  .of_settles fun _ _ => ⟨_, members_settles h⟩

section Written

variable (write : α → Written)

/-- A list is read back, if each of its items is. -/
theorem list_alone (h : d.Local) {as : List α}
    (hitem : ∀ a ∈ as, d.alone (depth - 1) (write a) = some a) (hdepth : 1 < depth) :
    d.list.alone depth (.list (as.map write)) = some as := by
  rw [alone_eq (list_settles h), within, if_neg (Nat.not_le_of_gt hdepth), listOf]
  induction as with
  | nil => rfl
  | cons a as ih =>
      rw [List.map_cons, List.mapM_cons, hitem a (List.mem_cons_self ..),
        ih fun a ha => hitem a (List.mem_cons_of_mem _ ha)]
      rfl

/-- An object with any keys is read back, if each of its values is. -/
theorem members_alone (h : d.Local) {ms : List (String × α)}
    (hvalue : ∀ m ∈ ms, d.alone (depth - 1) (write m.2) = some m.2) (hdepth : 1 < depth) :
    d.members.alone depth (.object (ms.map fun m => (m.1, write m.2))) = some ms := by
  rw [alone_eq (members_settles h), within, if_neg (Nat.not_le_of_gt hdepth), membersOf, entriesOf]
  induction ms with
  | nil => rfl
  | cons m ms ih =>
      rw [List.map_cons, List.mapM_cons, hvalue m (List.mem_cons_self ..),
        ih fun m hm => hvalue m (List.mem_cons_of_mem _ hm)]
      rfl

end Written

end Containers

/-! ## One of several names -/

section Names

variable (alternatives : List (String × α)) {depth : Nat} {v : Written}

theorem readVariant_quote {r : Reader} {blanks tail : List Char} (hblanks : Blank blanks)
    {name : String} (hrest : r.rest = blanks ++ (quote name ++ tail)) (hdepth : r.depth = depth) :
    Yields (readVariant alternatives r) (pick alternatives name).toOption tail depth := by
  have hquote : quote name ++ tail = '"' :: (name.toList.flatMap escapeChar ++ ['"'] ++ tail) := by
    simp [quote]
  obtain ⟨hrest', hdepth'⟩ := Reader.skipBlanks_takes hblanks (hquote ▸ hrest) rfl
  obtain ⟨r', hread, hbehind, hdepth''⟩ := readString_quote (hrest'.trans hquote.symm)
  simp only [readVariant, aheadOr, Reader.peek?_eq hrest', beq_self_eq_true, if_true, hread]
  cases pick alternatives name with
  | error e => exact ⟨_, rfl⟩
  | ok a => exact ⟨r', rfl, hbehind, (hdepth''.trans hdepth').trans hdepth⟩

def variantOf : Document ν → Option α
  | .text s => (pick alternatives s).toOption
  | _ => none

theorem readVariant_settles :
    Settles (readVariant alternatives) depth v (variantOf alternatives v) := by
  intro L indent r blanks tail hblanks hrest htail hdepth
  by_cases hquote : v.initial = '"'
  · obtain ⟨s, rfl⟩ := Document.eq_text hquote
    exact readVariant_quote alternatives hblanks hrest hdepth
  · have hnone : variantOf alternatives v = none := by
      cases v with
      | text s => exact absurd rfl hquote
      | _ => rfl
    rw [hnone]
    refine Settles.aheadOr (fun L indent r tail _ _ _ => ?_) L indent r blanks tail hblanks hrest
      htail hdepth
    rw [if_neg (by simpa using hquote)]
    exact yields_wrongTypeAhead ..

def nullOf : Document ν → Option Unit
  | .null => some ()
  | _ => none

theorem readNull_settles : Settles readNull depth v (nullOf v) := by
  refine Settles.aheadOr fun L indent r tail hrest _ hdepth => ?_
  by_cases hn : v.initial = 'n'
  · obtain rfl := Document.eq_null hn
    obtain ⟨r', hread, hbehind, hdepth'⟩ :=
      readWord_takes "ull".toList (Reader.rest_skip hrest)
    exact ⟨r', hread, hbehind, (hdepth'.trans r.depth_skip).trans hdepth⟩
  · rw [if_neg (by simpa using hn)]
    cases v with
    | null => exact absurd rfl hn
    | _ => exact yields_wrongTypeAhead ..

/-- The alternative whose name is the only key of an object, with null for its value. -/
def onlyNameOf : List (String × Document ν) → Option α
  | [] => none
  | m :: ms => (pick alternatives m.1).toOption.bind fun a =>
      (nullOf m.2).bind fun _ => if ms.isEmpty then some a else none

def namesOf (depth : Nat) : Document ν → Option α
  | .text s => (pick alternatives s).toOption
  | .object ms => within depth (onlyNameOf alternatives ms)
  | _ => none

/-- Behind its brace, an object is read as the only name in it. -/
theorem onlyName_yields {L : Layout} {indent : Nat} {tail : List Char} {ms : List (String × Written)}
    {r : Reader} (hrest : r.rest = L.members indent true ms ++ tail) (hdepth : r.depth = depth) :
    Yields
      (do
        let (a, r) ← readVariant alternatives r
        let (_, r) ← readColon r
        let (_, r) ← readNull r
        match r.skipBlanks.peek? with
        | some '\x7d' => .ok (a, r.skipBlanks.skip)
        | some _ => r.skipBlanks.fail .wantedValue
        | none => r.skipBlanks.fail .endInObject)
      (onlyNameOf alternatives ms) tail depth := by
  cases ms with
  | nil =>
      have hend : r.rest = [] ++ '\x7d' :: tail := hrest
      obtain ⟨hbehind, -⟩ := Reader.skipBlanks_takes (List.forall_mem_nil _) hend rfl
      obtain ⟨f, hf⟩ : ∃ f, readVariant alternatives r = .error f := by
        simp only [readVariant, aheadOr, Reader.peek?_eq hbehind]
        exact yields_wrongTypeAhead _ _ [] 0
      exact ⟨f, by rw [hf]; rfl⟩
  | cons m ms =>
      have hopen : r.rest = L.item (indent + 1) ++ (quote m.1 ++ (':' ::
          (L.colon ++ (L.chars (indent + 1) m.2 ++ (L.members indent false ms ++ tail))))) := by
        rw [hrest, Layout.members]
        simp [Layout.opening]
      have hname := readVariant_quote alternatives (L.item_blank (indent + 1)) hopen hdepth
      refine hname.bind (fun f hf => ⟨f, by rw [hf]; rfl⟩) ?_
      intro a r₁ hr₁ hrest₁ hdepth₁
      obtain ⟨hcolon, hnull⟩ := (readNull_settles (v := m.2)).behindColon hrest₁
        (closes_members L indent ms tail) hdepth₁
      simp only [hr₁, hcolon, bind, Except.bind]
      refine hnull.bind (fun f hf => ⟨f, by rw [hf]⟩) ?_
      intro _ r₂ hr₂ hrest₂ hdepth₂
      simp only [hr₂]
      cases ms with
      | nil =>
          have hend : r₂.rest = L.item indent ++ '\x7d' :: tail := by
            rw [hrest₂, Layout.members, List.append_assoc]
            rfl
          obtain ⟨hbehind, hdepth₃⟩ := Reader.skipBlanks_takes (L.item_blank indent) hend rfl
          simp only [Reader.peek?_eq hbehind]
          exact ⟨_, rfl, Reader.rest_skip hbehind,
            (Reader.depth_skip _).trans (hdepth₃.trans hdepth₂)⟩
      | cons m' ms =>
          simp only [Reader.skipBlanks_eq hrest₂ rfl, Reader.peek?_eq hrest₂]
          exact ⟨_, rfl⟩

theorem names_settles :
    Settles (oneOfNames alternatives).read depth v (namesOf alternatives depth v) := by
  intro L indent r blanks tail hblanks hrest htail hdepth
  obtain ⟨hpeek, hchars, hdepth'⟩ := v.ahead hblanks hrest
  have hlevel := hdepth'.trans hdepth
  by_cases hquote : v.initial = '"'
  · obtain ⟨s, rfl⟩ := Document.eq_text hquote
    simp only [oneOfNames, hpeek, Document.initial]
    exact readVariant_quote alternatives (List.forall_mem_nil _) hchars hlevel
  · by_cases hbrace : v.initial = '\x7b'
    · obtain ⟨ms, rfl⟩ := Document.eq_object hbrace
      simp only [oneOfNames, hpeek, Document.initial, hlevel]
      by_cases hdeep : depth ≤ 1
      · rw [namesOf, within, if_pos hdeep, if_pos hdeep]
        exact yields_failAhead ..
      · rw [namesOf, within, if_neg hdeep, if_neg hdeep]
        exact onlyName_yields alternatives (Reader.rest_skip hchars)
          ((Reader.depth_skip _).trans hlevel)
    · have hnone : namesOf alternatives depth v = none := by
        cases v with
        | text s => exact absurd rfl hquote
        | object ms => exact absurd rfl hbrace
        | _ => rfl
      rw [hnone]
      simp only [oneOfNames, hpeek]
      exact yields_failAhead ..

theorem names_alone (depth : Nat) (name : String) :
    (oneOfNames alternatives).alone depth (.text name) = (pick alternatives name).toOption :=
  alone_eq (names_settles alternatives)

end Names

end ScriptSandbox.Json.Decoder
