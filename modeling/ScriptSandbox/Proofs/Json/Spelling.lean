import ScriptSandbox.Proofs.Json.Settles

/-!
# Texts that are passed over

A `JsonText` is any text that says one value: with blanks wherever they may stand, with strings
written in any way, with any numbers, and with containers of any depth. Whatever it says, a pass comes
to stand behind it (`JsonText.passedOver`).

A container is a bracket and what `entriesText` says of its entries: its items, or its members with
their names.
-/

namespace ScriptSandbox.Json

/-! ## Containers -/

/-- An item of a list or a member of an object, with the blanks around it. -/
structure Entry where
  before : List Char
  /-- The name of a member and its colon; nothing before an item. -/
  label : List Char
  text : List Char
  after : List Char
  before_blank : Blank before
  after_blank : Blank after

/-- The entries that follow in a container, with its closing bracket; `gap` are the blanks ahead. -/
def entriesText (bracket : Char) (first : Bool) (gap : List Char) : List Entry → List Char
  | [] => gap ++ [bracket]
  | e :: es =>
    leading first gap ++
      (e.before ++ (e.label ++ (e.text ++ entriesText bracket false e.after es)))

/-- What stands before the value of a member whose key is written as `key`. -/
def LabelText (key label : List Char) : Prop :=
  ∃ gap gap', Blank gap ∧ Blank gap' ∧ label = key ++ (gap ++ ':' :: gap')

/-- A text that says one value. -/
inductive JsonText : List Char → Prop
  | null : JsonText "null".toList
  | wordTrue : JsonText "true".toList
  | wordFalse : JsonText "false".toList
  | number (n : Numeral) : JsonText n.chars
  | string {inner : List Char} (h : Quoted inner) : JsonText ('"' :: (inner ++ ['"']))
  | list {gap : List Char} {es : List Entry} (hgap : Blank gap) (hlabels : ∀ e ∈ es, e.label = [])
      (h : ∀ e ∈ es, JsonText e.text) : JsonText ('[' :: entriesText ']' true gap es)
  | object {gap : List Char} {es : List Entry} (hgap : Blank gap)
      (hlabels : ∀ e ∈ es, ∃ inner, Quoted inner ∧ LabelText ('"' :: (inner ++ ['"'])) e.label)
      (h : ∀ e ∈ es, JsonText e.text) : JsonText ('\x7b' :: entriesText '\x7d' true gap es)

/-- An entry of an object is a member with a name and the text of a value. -/
def Names (m : String × List Char) (e : Entry) : Prop :=
  e.text = m.2 ∧ ∃ key, StringText m.1 key ∧ LabelText key e.label

/-- A text of an object with these names and texts of values. -/
def ObjectText (ms : List (String × List Char)) (text : List Char) : Prop :=
  ∃ gap es, Blank gap ∧ List.Forall₂ Names ms es ∧ text = '\x7b' :: entriesText '\x7d' true gap es

/-- The text of an object says one value if each of its members does. -/
theorem ObjectText.jsonText {ms : List (String × List Char)} {text : List Char}
    (h : ObjectText ms text) (hms : ∀ m ∈ ms, JsonText m.2) : JsonText text := by
  obtain ⟨gap, es, hgap, hes, rfl⟩ := h
  have hentry : ∀ e ∈ es, (∃ inner, Quoted inner ∧ LabelText ('"' :: (inner ++ ['"'])) e.label) ∧
      JsonText e.text := by
    induction hes with
    | nil => exact List.forall_mem_nil _
    | cons he _ ih =>
        rw [List.forall_mem_cons] at hms
        obtain ⟨htext, key, ⟨inner, hspelled, rfl⟩, hlabel⟩ := he
        exact List.forall_mem_cons.mpr ⟨⟨⟨inner, hspelled.quoted, hlabel⟩, htext ▸ hms.1⟩, ih hms.2⟩
  exact .object hgap (fun e he => (hentry e he).1) fun e he => (hentry e he).2

section

variable {bracket : Char} {gap : List Char} {es : List Entry} {tail : List Char}

/-- What follows the value of an entry ends it. -/
theorem closes_entriesText (hbracket : bracket ∈ closers) (hgap : Blank gap) :
    Closes (entriesText bracket false gap es ++ tail) := by
  cases es with
  | nil =>
      rw [entriesText, List.append_assoc]
      exact (closes_cons hbracket _).blanks hgap
  | cons e es =>
      rw [entriesText, leading, if_neg Bool.false_ne_true, List.append_assoc, List.append_assoc]
      exact (closes_cons (by decide) _).blanks hgap

end

/-- No value begins with a character that ends one. -/
theorem JsonText.head {text : List Char} (h : JsonText text) :
    ∃ c cs, text = c :: cs ∧ c ∉ closers := by
  cases h with
  | null => exact ⟨'n', _, rfl, by decide⟩
  | wordTrue => exact ⟨'t', _, rfl, by decide⟩
  | wordFalse => exact ⟨'f', _, rfl, by decide⟩
  | number n =>
      obtain ⟨cs, hcs⟩ := (Document.number n).chars_eq .compact 0
      exact ⟨_, cs, hcs, (Document.number n).initial_not_mem_closers⟩
  | string => exact ⟨'"', _, rfl, by decide⟩
  | list => exact ⟨'[', _, rfl, by decide⟩
  | object => exact ⟨'\x7b', _, rfl, by decide⟩

/-! ## Passing over -/

/-- What a pass does behind a value. -/
def passed (fuel : Nat) (open_ : List Bool) (r : Reader) : Except Fault (Unit × Reader) :=
  if open_.isEmpty then .ok ((), r) else ignoreFrom fuel (.entry false) open_ r

/-- A pass ends before `tail`, with fuel left for it. -/
def Passes (x : Except Fault (Unit × Reader)) (open_ : List Bool) (tail : List Char)
    (depth : Nat) : Prop :=
  ∃ fuel r, x = passed fuel open_ r ∧ r.rest = tail ∧ r.depth = depth ∧ 2 * tail.length < fuel

/-- A text is passed over wherever it stands. -/
def Skippable (text : List Char) : Prop :=
  ∀ (fuel : Nat) (open_ : List Bool) (r : Reader) (blanks tail : List Char),
    Blank blanks → r.rest = blanks ++ (text ++ tail) → Closes tail →
    2 * r.rest.length ≤ fuel → Passes (ignoreFrom fuel .value open_ r) open_ tail r.depth

section

variable {fuel : Nat} {outer : List Bool} {r : Reader} {tail : List Char}

/-- A closing bracket ends a pass through a container. -/
theorem entry_end {first isObject : Bool} {blanks : List Char} (hblanks : Blank blanks)
    (hrest : r.rest = blanks ++ (if isObject then '\x7d' else ']') :: tail)
    (hfuel : 2 * r.rest.length < fuel) :
    Passes (ignoreFrom fuel (.entry first) (isObject :: outer) r) outer tail r.depth := by
  obtain ⟨fuel, rfl⟩ := Nat.exists_eq_add_one.mpr (Nat.zero_lt_of_lt hfuel)
  have hbracket : Reader.isBlank (if isObject then '\x7d' else ']') = false := by
    cases isObject <;> rfl
  obtain ⟨hbehind, hdepth⟩ := Reader.skipBlanks_takes hblanks hrest hbracket
  refine ⟨fuel, r.skipBlanks.skip, ?_, Reader.rest_skip hbehind,
    (Reader.depth_skip _).trans hdepth, ?_⟩
  · simp only [ignoreFrom, Reader.peek?_eq hbehind, beq_self_eq_true, if_true, passed]
  · rw [hrest, List.length_append, List.length_cons] at hfuel
    omega

theorem entry_item (fuel : Nat) (outer : List Bool) {first : Bool} {gap before text : List Char}
    (hgap : Blank gap) (hbefore : Blank before) {c : Char} {cs : List Char} (htext : text = c :: cs)
    (hc : c ∉ closers) (hrest : r.rest = leading first gap ++ (before ++ (text ++ tail))) :
    ∃ r' blanks, Blank blanks ∧
      ignoreFrom (fuel + 1) (.entry first) (false :: outer) r =
        ignoreFrom fuel .value (false :: outer) r' ∧
      r'.rest = blanks ++ (text ++ tail) ∧ r'.depth = r.depth ∧
      r'.rest.length ≤ r.rest.length := by
  subst htext
  cases first with
  | true =>
      have hblank : Reader.isBlank c = false :=
        Bool.eq_false_iff.mpr fun h => hc (mem_closers_of_isBlank h)
      have hopen : r.rest = before ++ c :: (cs ++ tail) := hrest
      obtain ⟨hbehind, hdepth⟩ := Reader.skipBlanks_takes hbefore hopen hblank
      have hbracket : (c == ']') = false := beq_eq_false_iff_ne.mpr fun h => hc (h ▸ by decide)
      refine ⟨r.skipBlanks, [], List.forall_mem_nil _, ?_, hbehind, hdepth, ?_⟩
      · simp only [ignoreFrom, Reader.peek?_eq hbehind, Bool.false_eq_true, if_false, hbracket, if_true]
      · rw [hopen, hbehind]
        simp only [List.length_append, List.length_cons]
        omega
  | false =>
      have hcomma : r.rest = gap ++ ',' :: (before ++ (c :: cs ++ tail)) := by
        rw [hrest]
        simp [leading]
      obtain ⟨hbehind, hdepth⟩ := Reader.skipBlanks_takes hgap hcomma rfl
      have hskip := Reader.rest_skip hbehind
      refine ⟨r.skipBlanks.skip, before, hbefore, ?_, hskip, (Reader.depth_skip _).trans hdepth, ?_⟩
      · simp only [ignoreFrom, Reader.peek?_eq hbehind]
        rfl
      · rw [hcomma, hskip]
        simp only [List.length_append, List.length_cons]
        omega

/-- A pass through a list ends behind it if each of its items is passed over. -/
theorem items_passed {es : List Entry} (hlabels : ∀ e ∈ es, e.label = [])
    (htexts : ∀ e ∈ es, JsonText e.text) (hes : ∀ e ∈ es, Skippable e.text) {first : Bool}
    {gap : List Char} (hgap : Blank gap) (hrest : r.rest = entriesText ']' first gap es ++ tail)
    (hfuel : 2 * r.rest.length < fuel) :
    Passes (ignoreFrom fuel (.entry first) (false :: outer) r) outer tail r.depth := by
  induction es generalizing fuel first gap r with
  | nil =>
      rw [entriesText, List.append_assoc] at hrest
      exact entry_end hgap hrest hfuel
  | cons e es ih =>
      obtain ⟨fuel, rfl⟩ := Nat.exists_eq_add_one.mpr (Nat.zero_lt_of_lt hfuel)
      obtain ⟨c, cs, htext, hc⟩ := (htexts e (List.mem_cons_self ..)).head
      have hopen : r.rest = leading first gap ++ (e.before ++
          (e.text ++ (entriesText ']' false e.after es ++ tail))) := by
        rw [hrest, entriesText, hlabels e (List.mem_cons_self ..)]
        simp
      obtain ⟨r₁, blanks, hblanks, hstep, hrest₁, hdepth₁, hlength⟩ :=
        entry_item fuel outer hgap e.before_blank htext hc hopen
      obtain ⟨fuel₂, r₂, hpass, hrest₂, hdepth₂, hfuel₂⟩ :=
        hes e (List.mem_cons_self ..) fuel (false :: outer) r₁ blanks _ hblanks hrest₁
          (closes_entriesText (by decide) e.after_blank) (by omega)
      have hgo := ih (fun e he => hlabels e (List.mem_cons_of_mem _ he))
        (fun e he => htexts e (List.mem_cons_of_mem _ he))
        (fun e he => hes e (List.mem_cons_of_mem _ he)) e.after_blank hrest₂ (hrest₂ ▸ hfuel₂)
      rw [hstep, hpass]
      rw [hdepth₂, hdepth₁] at hgo
      exact hgo

/-- A pass through an object goes on before the value of its next member. -/
theorem entry_member (fuel : Nat) (outer : List Bool) {first : Bool}
    {gap before label inner : List Char} (hgap : Blank gap) (hbefore : Blank before)
    (hquoted : Quoted inner) (hlabel : LabelText ('"' :: (inner ++ ['"'])) label)
    (hrest : r.rest = leading first gap ++ (before ++ (label ++ tail))) :
    ∃ r' blanks, Blank blanks ∧
      ignoreFrom (fuel + 1) (.entry first) (true :: outer) r =
        ignoreFrom fuel .value (true :: outer) r' ∧
      r'.rest = blanks ++ tail ∧ r'.depth = r.depth ∧ r'.rest.length ≤ r.rest.length := by
  obtain ⟨mid, mid', hmid, hmid', rfl⟩ := hlabel
  -- Behind the key, the blanks and the colon.
  have hkey {r₀ : Reader}
      (hquote : r₀.rest = '"' :: (inner ++ ['"']) ++ (mid ++ ':' :: (mid' ++ tail))) :
      ∃ r₁, ignoreStringFrom (r₀.rest.length + 1) r₀.skip = .ok ((), r₁) ∧
        r₁.skipBlanks.peek? = some ':' ∧ r₁.skipBlanks.skip.rest = mid' ++ tail ∧
        r₁.skipBlanks.skip.depth = r₀.depth := by
    obtain ⟨r₁, hread, hrest₁, hdepth₁⟩ := ignoreString_quoted hquoted hquote
    obtain ⟨hcolon, hdepth₂⟩ := Reader.skipBlanks_takes hmid hrest₁ rfl
    exact ⟨r₁, hread, Reader.peek?_eq hcolon, Reader.rest_skip hcolon,
      (Reader.depth_skip _).trans (hdepth₂.trans hdepth₁)⟩
  cases first with
  | true =>
      have hopen : r.rest = before ++ '"' ::
          (inner ++ ['"'] ++ (mid ++ ':' :: (mid' ++ tail))) := by
        rw [hrest]
        simp [leading]
      obtain ⟨hbehind, hdepth⟩ := Reader.skipBlanks_takes hbefore hopen rfl
      obtain ⟨r₁, hread, hpeek, hskip, hdepth₁⟩ := hkey hbehind
      refine ⟨r₁.skipBlanks.skip, mid', hmid', ?_, hskip, hdepth₁.trans hdepth, ?_⟩
      · simp only [ignoreFrom, Reader.peek?_eq hbehind, Reader.skipBlanks_eq hbehind rfl, hread, hpeek]
        rfl
      · rw [hopen, hskip]
        simp only [List.length_append, List.length_cons]
        omega
  | false =>
      have hcomma : r.rest = gap ++ ',' :: (before ++ '"' ::
          (inner ++ ['"'] ++ (mid ++ ':' :: (mid' ++ tail)))) := by
        rw [hrest]
        simp [leading]
      obtain ⟨hbehind, hdepth⟩ := Reader.skipBlanks_takes hgap hcomma rfl
      obtain ⟨hquote, hdepth'⟩ :=
        Reader.skipBlanks_takes hbefore (Reader.rest_skip hbehind)
          (show Reader.isBlank '"' = false from rfl)
      obtain ⟨r₁, hread, hpeek, hskip, hdepth₁⟩ := hkey hquote
      refine ⟨r₁.skipBlanks.skip, mid', hmid', ?_, hskip,
        hdepth₁.trans (hdepth'.trans ((Reader.depth_skip _).trans hdepth)), ?_⟩
      · simp only [ignoreFrom, Reader.peek?_eq hbehind, Reader.peek?_eq hquote, hread, hpeek]
        rfl
      · rw [hcomma, hskip]
        simp only [List.length_append, List.length_cons]
        omega

/-- A pass through an object ends behind it if each of its values is passed over. -/
theorem members_passed {es : List Entry}
    (hlabels : ∀ e ∈ es, ∃ inner, Quoted inner ∧ LabelText ('"' :: (inner ++ ['"'])) e.label)
    (hes : ∀ e ∈ es, Skippable e.text) {first : Bool} {gap : List Char} (hgap : Blank gap)
    (hrest : r.rest = entriesText '\x7d' first gap es ++ tail) (hfuel : 2 * r.rest.length < fuel) :
    Passes (ignoreFrom fuel (.entry first) (true :: outer) r) outer tail r.depth := by
  induction es generalizing fuel first gap r with
  | nil =>
      rw [entriesText, List.append_assoc] at hrest
      exact entry_end hgap hrest hfuel
  | cons e es ih =>
      obtain ⟨fuel, rfl⟩ := Nat.exists_eq_add_one.mpr (Nat.zero_lt_of_lt hfuel)
      obtain ⟨inner, hquoted, hlabel⟩ := hlabels e (List.mem_cons_self ..)
      have hopen : r.rest = leading first gap ++ (e.before ++ (e.label ++
          (e.text ++ (entriesText '\x7d' false e.after es ++ tail)))) := by
        rw [hrest, entriesText]
        simp
      obtain ⟨r₁, blanks, hblanks, hstep, hrest₁, hdepth₁, hlength⟩ :=
        entry_member fuel outer hgap e.before_blank hquoted hlabel hopen
      obtain ⟨fuel₂, r₂, hpass, hrest₂, hdepth₂, hfuel₂⟩ :=
        hes e (List.mem_cons_self ..) fuel (true :: outer) r₁ blanks _ hblanks hrest₁
          (closes_entriesText (by decide) e.after_blank) (by omega)
      have hgo := ih (fun e he => hlabels e (List.mem_cons_of_mem _ he))
        (fun e he => hes e (List.mem_cons_of_mem _ he)) e.after_blank hrest₂ (hrest₂ ▸ hfuel₂)
      rw [hstep, hpass]
      rw [hdepth₂, hdepth₁] at hgo
      exact hgo

end

/-- Where a text is ahead, the pass has fuel for its first character. -/
theorem skippable_of_ahead {c : Char} {cs : List Char} (hc : c ∉ closers)
    (h : ∀ (fuel : Nat) (open_ : List Bool) (r : Reader) (tail : List Char),
      r.skipBlanks.rest = c :: (cs ++ tail) → Closes tail →
      2 * r.skipBlanks.skip.rest.length < fuel → 2 * tail.length < fuel →
      Passes (ignoreFrom (fuel + 1) .value open_ r) open_ tail r.skipBlanks.depth) :
    Skippable (c :: cs) := by
  intro fuel open_ r blanks tail hblanks hrest htail hfuel
  have hblank : Reader.isBlank c = false :=
    Bool.eq_false_iff.mpr fun h => hc (mem_closers_of_isBlank h)
  obtain ⟨hchars, hdepth⟩ := Reader.skipBlanks_takes hblanks
    (show r.rest = blanks ++ c :: (cs ++ tail) from hrest) hblank
  have hskip := Reader.rest_skip hchars
  have hlength : r.rest.length = blanks.length + (cs.length + tail.length + 1) := by
    rw [hrest, List.length_append, List.length_append, List.length_cons]
    omega
  obtain ⟨fuel, rfl⟩ := Nat.exists_eq_add_one.mpr (show 0 < fuel by omega)
  have hinner : 2 * r.skipBlanks.skip.rest.length < fuel := by
    rw [hskip, List.length_append]
    omega
  rw [← hdepth]
  exact h fuel open_ r tail hchars htail hinner (by omega)

/-- A word is passed over. -/
theorem skippable_word {c : Char} {w : List Char} (hc : c ∉ closers)
    (h : ∀ (fuel : Nat) (open_ : List Bool) (r : Reader), r.skipBlanks.peek? = some c →
      ignoreFrom (fuel + 1) .value open_ r =
        match readWord w r.skipBlanks.skip with
        | .error f => .error f
        | .ok (_, r) => passed fuel open_ r) : Skippable (c :: w) := by
  refine skippable_of_ahead hc fun fuel open_ r tail hchars _ _ hleft => ?_
  obtain ⟨r', hread, hbehind, hdepth⟩ := readWord_takes w (Reader.rest_skip hchars)
  refine ⟨fuel, r', ?_, hbehind, hdepth.trans (Reader.depth_skip _), hleft⟩
  simp only [h fuel open_ r (Reader.peek?_eq hchars), hread]

/-- Every value is passed over, however it is written and however deep it is. -/
theorem JsonText.skippable {text : List Char} (h : JsonText text) : Skippable text := by
  induction h with
  | null =>
      show Skippable ('n' :: "ull".toList)
      exact skippable_word (by decide) fun _ _ _ hpeek => by simp only [ignoreFrom, hpeek]; rfl
  | wordTrue =>
      show Skippable ('t' :: "rue".toList)
      exact skippable_word (by decide) fun _ _ _ hpeek => by simp only [ignoreFrom, hpeek]; rfl
  | wordFalse =>
      show Skippable ('f' :: "alse".toList)
      exact skippable_word (by decide) fun _ _ _ hpeek => by simp only [ignoreFrom, hpeek]; rfl
  | number n =>
      obtain ⟨cs, hcs⟩ := (Document.number n).chars_eq .compact 0
      have hchars' : n.chars = (Document.number n).initial :: cs := hcs
      rw [hchars']
      refine skippable_of_ahead (Document.number n).initial_not_mem_closers
        fun fuel open_ r tail hchars htail _ hleft => ?_
      have hpeek := Reader.peek?_eq hchars
      rw [← List.cons_append, ← hchars', Numeral.chars] at hchars
      rcases Document.initial_number_cases n with ⟨hsign, hminus⟩ |
        ⟨hsign, hdigit, hminus, hn, ht, hf, hquote, hbracket, hbrace⟩
      · obtain ⟨r', hread, hbehind, hdepth⟩ := ignoreNumber_yields n htail
          (Reader.rest_skip (hchars.trans (by rw [hsign]; rfl)))
        refine ⟨fuel, r', ?_, hbehind, hdepth.trans (Reader.depth_skip _), hleft⟩
        simp only [ignoreFrom, hpeek, hminus, hread, passed]
      · rw [hsign] at hchars
        obtain ⟨r', hread, hbehind, hdepth⟩ := ignoreNumber_yields n htail hchars
        refine ⟨fuel, r', ?_, hbehind, hdepth, hleft⟩
        simp only [ignoreFrom, hpeek, hdigit, if_true, hread, passed]
  | string hquoted =>
      refine skippable_of_ahead (by decide) fun fuel open_ r tail hchars _ _ hleft => ?_
      obtain ⟨r', hread, hbehind, hdepth⟩ := ignoreString_quoted hquoted hchars
      refine ⟨fuel, r', ?_, hbehind, hdepth, hleft⟩
      simp only [ignoreFrom, Reader.peek?_eq hchars, hread, passed]
  | list hgap hlabels htexts ih =>
      refine skippable_of_ahead (by decide) fun fuel open_ r tail hchars _ hinner _ => ?_
      have hgo : Passes (ignoreFrom fuel (.entry true) (false :: open_) r.skipBlanks.skip) open_ tail
          r.skipBlanks.skip.depth :=
        items_passed hlabels htexts ih hgap (Reader.rest_skip hchars) hinner
      rw [Reader.depth_skip] at hgo
      simpa only [ignoreFrom, Reader.peek?_eq hchars] using hgo
  | object hgap hlabels _ ih =>
      refine skippable_of_ahead (by decide) fun fuel open_ r tail hchars _ hinner _ => ?_
      have hgo : Passes (ignoreFrom fuel (.entry true) (true :: open_) r.skipBlanks.skip) open_ tail
          r.skipBlanks.skip.depth :=
        members_passed hlabels ih hgap (Reader.rest_skip hchars) hinner
      rw [Reader.depth_skip] at hgo
      simpa only [ignoreFrom, Reader.peek?_eq hchars] using hgo

end ScriptSandbox.Json
