import ScriptSandbox.Proofs.Json.Numbers

/-!
# Reading the text of a document

What is read of a document's text does not depend on where the text stands: on the layout, on the
blanks before it, or on what follows it (`Settles`). This holds of every document, also of one that is
refused. The main results are about containers: reading the items of a list is reading each of them
(`readItems_yields`), and reading the members of an object is a fold over them
(`readMembers_yields`).
-/

namespace ScriptSandbox.Json

/-! ## How texts begin -/

/-- The character that a document's text begins with. -/
def Document.initial : Written → Char
  | .null => 'n'
  | .bool true => 't'
  | .bool false => 'f'
  | .number n => n.chars.headD '0'
  | .text _ => '"'
  | .list _ => '['
  | .object _ => '\x7b'

namespace Document

/-- A number begins with its sign or with a digit. -/
theorem initial_number (n : Numeral) :
    n.negative = true ∧ initial (.number n) = '-' ∨
      n.negative = false ∧
        ('0' ≤ initial (.number n) && initial (.number n) ≤ '9') = true := by
  obtain ⟨d, ds, hdigits⟩ := List.exists_cons_of_ne_nil n.whole.nonempty
  rw [initial, Numeral.chars, Numeral.magnitude, hdigits]
  cases n.negative with
  | true => exact .inl ⟨rfl, rfl⟩
  | false => exact .inr ⟨rfl, n.whole.all_digits d (hdigits ▸ List.mem_cons_self ..)⟩

/-- A number begins like no other document. -/
theorem initial_number_ne (n : Numeral) {c : Char} (hminus : c ≠ '-')
    (hc : ('0' ≤ c && c ≤ '9') = false) : initial (.number n) ≠ c := by
  rintro rfl
  rcases initial_number n with ⟨-, hsign⟩ | ⟨-, hdigit⟩
  · exact hminus hsign
  · exact absurd (hdigit.symm.trans hc) (by decide)

/-- Whether a number is behind a sign tells which reading step is taken for it; the other characters
that a document may begin with are out of the question. -/
theorem initial_number_cases (n : Numeral) :
    (n.negative = true ∧ initial (.number n) = '-') ∨
      (n.negative = false ∧ ('0' ≤ initial (.number n) && initial (.number n) ≤ '9') = true ∧
        initial (.number n) ≠ '-' ∧ initial (.number n) ≠ 'n' ∧ initial (.number n) ≠ 't' ∧
        initial (.number n) ≠ 'f' ∧ initial (.number n) ≠ '"' ∧ initial (.number n) ≠ '[' ∧
        initial (.number n) ≠ '\x7b') := by
  rcases initial_number n with hsign | ⟨hsign, hdigit⟩
  · exact .inl hsign
  · have hne {c : Char} (hc : ('0' ≤ c && c ≤ '9') = false) : initial (.number n) ≠ c := by
      rintro rfl
      exact absurd (hdigit.symm.trans hc) (by decide)
    exact .inr ⟨hsign, hdigit, hne rfl, hne rfl, hne rfl, hne rfl, hne rfl, hne rfl, hne rfl⟩

theorem chars_eq (v : Written) (L : Layout) (indent : Nat) :
    ∃ cs, L.chars indent v = v.initial :: cs := by
  cases v with
  | bool b => cases b <;> exact ⟨_, rfl⟩
  | number n =>
      obtain ⟨d, ds, hdigits⟩ := List.exists_cons_of_ne_nil n.whole.nonempty
      rw [Layout.chars, initial, Numeral.chars, Numeral.magnitude, hdigits]
      cases n.negative <;> exact ⟨_, rfl⟩
  | _ => exact ⟨_, rfl⟩

/-- No document begins with a character that ends one. -/
theorem initial_not_mem_closers (v : Written) : v.initial ∉ closers := by
  cases v with
  | bool b => cases b <;> decide
  | number n =>
      intro hc
      refine initial_number_ne n ?_ (closers_end_number _ hc).1 rfl
      intro hminus
      rw [hminus] at hc
      exact absurd hc (by decide)
  | null => decide
  | text _ => exact (show '"' ∉ closers by decide)
  | list _ => exact (show '[' ∉ closers by decide)
  | object _ => exact (show '\x7b' ∉ closers by decide)

theorem isBlank_initial (v : Written) : Reader.isBlank v.initial = false :=
  Bool.eq_false_iff.mpr fun h => v.initial_not_mem_closers (mem_closers_of_isBlank h)

theorem initial_ne_bracket (v : Written) : v.initial ≠ ']' :=
  fun h => v.initial_not_mem_closers (h ▸ by decide)

theorem initial_ne_comma (v : Written) : v.initial ≠ ',' :=
  fun h => v.initial_not_mem_closers (h ▸ by decide)

variable {v : Written}

theorem eq_text (h : v.initial = '"') : ∃ s, v = .text s := by
  cases v with
  | text s => exact ⟨s, rfl⟩
  | number n => exact absurd h (initial_number_ne n (by decide) rfl)
  | bool b => cases b <;> simp [initial] at h
  | _ => simp [initial] at h

theorem eq_list (h : v.initial = '[') : ∃ vs, v = .list vs := by
  cases v with
  | list vs => exact ⟨vs, rfl⟩
  | number n => exact absurd h (initial_number_ne n (by decide) rfl)
  | bool b => cases b <;> simp [initial] at h
  | _ => simp [initial] at h

theorem eq_object (h : v.initial = '\x7b') : ∃ ms, v = .object ms := by
  cases v with
  | object ms => exact ⟨ms, rfl⟩
  | number n => exact absurd h (initial_number_ne n (by decide) rfl)
  | bool b => cases b <;> simp [initial] at h
  | _ => simp [initial] at h

theorem eq_null (h : v.initial = 'n') : v = .null := by
  cases v with
  | null => rfl
  | number n => exact absurd h (initial_number_ne n (by decide) rfl)
  | bool b => cases b <;> simp [initial] at h
  | _ => simp [initial] at h

end Document

/-! ## What is read of a document -/

section Reading

variable {α : Type}

/-- What is read of a document's text, wherever it stands with so many levels left. -/
def Settles (read : Read α) (depth : Nat) (v : Written) (a? : Option α) : Prop :=
  ∀ (L : Layout) (indent : Nat) (r : Reader) (blanks tail : List Char), Blank blanks →
    r.rest = blanks ++ (L.chars indent v ++ tail) → Closes tail → r.depth = depth →
    Yields (read r) a? tail depth

variable {read : Read α} {depth : Nat} {v : Written} {a? : Option α}

theorem Document.ahead (v : Written) {L : Layout} {indent : Nat} {r : Reader}
    {blanks tail : List Char} (hblanks : Blank blanks)
    (hrest : r.rest = blanks ++ (L.chars indent v ++ tail)) :
    r.skipBlanks.peek? = some v.initial ∧ r.skipBlanks.rest = L.chars indent v ++ tail ∧
      r.skipBlanks.depth = r.depth := by
  obtain ⟨cs, hcs⟩ := v.chars_eq L indent
  rw [hcs, List.cons_append] at hrest ⊢
  obtain ⟨hbehind, hdepth⟩ := Reader.skipBlanks_takes hblanks hrest v.isBlank_initial
  exact ⟨Reader.peek?_eq hbehind, hbehind, hdepth⟩

/-- A step that looks at the first character of a document's text. -/
theorem Settles.aheadOr {f : Char → Read α}
    (h : ∀ (L : Layout) (indent : Nat) (r : Reader) (tail : List Char),
      r.rest = L.chars indent v ++ tail → Closes tail → r.depth = depth →
      Yields (f v.initial r) a? tail depth) :
    Settles (Decoder.aheadOr f) depth v a? := by
  intro L indent r blanks tail hblanks hrest htail hdepth
  obtain ⟨hpeek, hchars, hdepth'⟩ := v.ahead hblanks hrest
  simp only [Decoder.aheadOr, hpeek]
  exact h L indent r.skipBlanks tail hchars htail (hdepth'.trans hdepth)

theorem yields_wrongTypeAhead (wanted : String) (r : Reader) (tail : List Char) (depth : Nat) :
    Yields (wrongTypeAhead wanted r : Except Fault (α × Reader)) none tail depth :=
  yields_none fun _ => wrongTypeAhead_ne_ok

theorem yields_failAhead (reason : Reason) (r : Reader) (tail : List Char) (depth : Nat) :
    Yields (r.failAhead reason : Except Fault (α × Reader)) none tail depth :=
  yields_none fun _ => Reader.failAhead_ne_ok

end Reading

/-! ## Keys and items -/

section Parts

variable {first : Bool} {r : Reader} {blanks tail : List Char}

/-- What stands before an item or a member: the blanks behind the last one and a comma. -/
def leading (first : Bool) (gap : List Char) : List Char := if first then [] else gap ++ [',']

/-- The key of the next member is read, however it is written. -/
theorem nextKey_spelled {gap : List Char} (hgap : Blank gap) (hblanks : Blank blanks) {k : String}
    {key : List Char} (hkey : StringText k key)
    (h : r.rest = leading first gap ++ (blanks ++ (key ++ tail))) :
    ∃ r', nextKey first r = .ok (some k, r') ∧ r'.rest = tail ∧ r'.depth = r.depth := by
  obtain ⟨inner, -, hquote⟩ := id hkey
  have hcons : key ++ tail = '"' :: (inner ++ ['"'] ++ tail) := by rw [hquote]; rfl
  rw [hcons] at h
  cases first with
  | true =>
      have hopen : r.rest = blanks ++ '"' :: (inner ++ ['"'] ++ tail) := h
      obtain ⟨hrest, hdepth⟩ := Reader.skipBlanks_takes hblanks hopen rfl
      obtain ⟨r', hread, hrest', hdepth'⟩ := readString_spelled hkey (hrest.trans hcons.symm)
      refine ⟨r', ?_, hrest', hdepth'.trans hdepth⟩
      simp only [nextKey, Reader.peek?_eq hrest, hread]
      rfl
  | false =>
      have hcomma : r.rest = gap ++ ',' :: (blanks ++ '"' :: (inner ++ ['"'] ++ tail)) :=
        h.trans (List.append_assoc ..)
      obtain ⟨hbehind, hdepth⟩ := Reader.skipBlanks_takes hgap hcomma rfl
      obtain ⟨hrest, hdepth'⟩ := Reader.skipBlanks_takes hblanks (Reader.rest_skip hbehind)
        (show Reader.isBlank '"' = false from rfl)
      obtain ⟨r', hread, hrest', hdepth''⟩ := readString_spelled hkey (hrest.trans hcons.symm)
      refine ⟨r', ?_, hrest', hdepth''.trans (hdepth'.trans ((Reader.depth_skip _).trans hdepth))⟩
      simp only [nextKey, Reader.peek?_eq hbehind, Reader.peek?_eq hrest, hread]
      rfl

theorem nextKey_takes (hblanks : Blank blanks) {k : String}
    (h : r.rest = Layout.opening first ++ (blanks ++ (quote k ++ tail))) :
    ∃ r', nextKey first r = .ok (some k, r') ∧ r'.rest = tail ∧ r'.depth = r.depth := by
  have hopening : Layout.opening first = leading first [] := by cases first <;> rfl
  exact nextKey_spelled (List.forall_mem_nil _) hblanks (stringText_quote k) (hopening ▸ h)

theorem nextKey_end (first : Bool) (hblanks : Blank blanks) (h : r.rest = blanks ++ '\x7d' :: tail) :
    ∃ r', nextKey first r = .ok (none, r') ∧ r'.rest = '\x7d' :: tail ∧ r'.depth = r.depth := by
  obtain ⟨hrest, hdepth⟩ := Reader.skipBlanks_takes hblanks h rfl
  refine ⟨r.skipBlanks, ?_, hrest, hdepth⟩
  simp only [nextKey, Reader.peek?_eq hrest]

theorem nextItem_takes (hblanks : Blank blanks) {c : Char} (hc : Reader.isBlank c = false)
    (hbracket : c ≠ ']') (h : r.rest = Layout.opening first ++ (blanks ++ c :: tail)) :
    ∃ r', nextItem first r = .ok (true, r') ∧ r'.rest = c :: tail ∧ r'.depth = r.depth := by
  cases first with
  | true =>
      obtain ⟨hrest, hdepth⟩ := Reader.skipBlanks_takes hblanks h hc
      refine ⟨r.skipBlanks, ?_, hrest, hdepth⟩
      simp only [nextItem, Reader.peek?_eq hrest]
      rfl
  | false =>
      have hskip := Reader.rest_skip h
      obtain ⟨hrest, hdepth⟩ := Reader.skipBlanks_takes hblanks hskip hc
      refine ⟨r.skip.skipBlanks, ?_, hrest, hdepth.trans r.depth_skip⟩
      simp only [nextItem, Reader.skipBlanks_eq h rfl, Reader.peek?_eq h, Reader.peek?_eq hrest]
      rfl

theorem nextItem_end (first : Bool) (hblanks : Blank blanks) (h : r.rest = blanks ++ ']' :: tail) :
    ∃ r', nextItem first r = .ok (false, r') ∧ r'.rest = ']' :: tail ∧ r'.depth = r.depth := by
  obtain ⟨hrest, hdepth⟩ := Reader.skipBlanks_takes hblanks h rfl
  refine ⟨r.skipBlanks, ?_, hrest, hdepth⟩
  simp only [nextItem, Reader.peek?_eq hrest]

theorem readColon_takes (h : r.rest = ':' :: tail) : readColon r = .ok ((), r.skip) := by
  simp only [readColon, Reader.skipBlanks_eq h rfl, Reader.peek?_eq h]

theorem readColon_spelled (hblanks : Blank blanks) (h : r.rest = blanks ++ ':' :: tail) :
    readColon r = .ok ((), r.skipBlanks.skip) ∧ r.skipBlanks.skip.rest = tail ∧
      r.skipBlanks.skip.depth = r.depth := by
  obtain ⟨hcolon, hdepth⟩ := Reader.skipBlanks_takes hblanks h rfl
  refine ⟨?_, Reader.rest_skip hcolon, (Reader.depth_skip _).trans hdepth⟩
  simp only [readColon, Reader.peek?_eq hcolon]

theorem Settles.behindColon {α : Type} {read : Read α} {depth : Nat} {v : Written} {a? : Option α}
    (h : Settles read depth v a?) {L : Layout} {indent : Nat}
    (hrest : r.rest = ':' :: (L.colon ++ (L.chars indent v ++ tail))) (htail : Closes tail)
    (hdepth : r.depth = depth) :
    readColon r = .ok ((), r.skip) ∧ Yields (read r.skip) a? tail depth :=
  ⟨readColon_takes hrest, h L indent r.skip L.colon tail L.colon_blank (Reader.rest_skip hrest) htail
    (r.depth_skip.trans hdepth)⟩

end Parts

/-! ## Containers -/

section Containers

variable {α σ : Type} {depth : Nat} {tail : List Char}

theorem closes_items (L : Layout) (indent : Nat) (vs : List Written) (tail : List Char) :
    Closes (L.items indent false vs ++ tail) := by
  cases vs with
  | nil =>
      rw [Layout.items, List.append_assoc]
      exact (closes_cons (by decide) _).blanks (L.item_blank indent)
  | cons v vs => exact closes_cons (by decide) _

theorem closes_members (L : Layout) (indent : Nat) (ms : List (String × Written)) (tail : List Char) :
    Closes (L.members indent false ms ++ tail) := by
  cases ms with
  | nil =>
      rw [Layout.members, List.append_assoc]
      exact (closes_cons (by decide) _).blanks (L.item_blank indent)
  | cons m ms => exact closes_cons (by decide) _

theorem ending_blank (L : Layout) (indent : Nat) (first : Bool) : Blank (L.ending indent first) := by
  cases first with
  | true => exact List.forall_mem_nil _
  | false => exact L.item_blank indent

theorem length_lt_items (L : Layout) (indent : Nat) (first : Bool) (vs : List Written) :
    vs.length < (L.items indent first vs).length := by
  induction vs generalizing first with
  | nil =>
      rw [Layout.items, List.length_append]
      exact Nat.lt_add_left _ Nat.one_pos
  | cons v vs ih =>
      obtain ⟨cs, hcs⟩ := v.chars_eq L (indent + 1)
      have hrest := ih false
      simp only [Layout.items, hcs, List.length_append, List.length_cons]
      omega

theorem length_lt_members (L : Layout) (indent : Nat) (first : Bool) (ms : List (String × Written)) :
    ms.length < (L.members indent first ms).length := by
  induction ms generalizing first with
  | nil =>
      rw [Layout.members, List.length_append]
      exact Nat.lt_add_left _ Nat.one_pos
  | cons m ms ih =>
      have hrest := ih false
      simp only [Layout.members, List.length_append, List.length_cons]
      omega

theorem item_ahead {L : Layout} {indent : Nat} {v : Written} {vs : List Written}
    {first : Bool} {r : Reader} (hrest : r.rest = L.items indent first (v :: vs) ++ tail) :
    ∃ r', nextItem first r = .ok (true, r') ∧
      r'.rest = [] ++ (L.chars (indent + 1) v ++ (L.items indent false vs ++ tail)) ∧
      r'.depth = r.depth := by
  obtain ⟨cs, hcs⟩ := v.chars_eq L (indent + 1)
  have hopen : r.rest = Layout.opening first ++ (L.item (indent + 1) ++
      v.initial :: (cs ++ (L.items indent false vs ++ tail))) := by
    rw [hrest, Layout.items, hcs]
    simp
  obtain ⟨r', hnext, hrest', hdepth⟩ := nextItem_takes (L.item_blank (indent + 1))
    v.isBlank_initial v.initial_ne_bracket hopen
  refine ⟨r', hnext, ?_, hdepth⟩
  rw [hrest', hcs]
  rfl

theorem readItems_yields {item : Read α} {g : Written → Option α} (L : Layout) (indent : Nat)
    {vs : List Written} (hitem : ∀ v ∈ vs, Settles item depth v (g v))
    {fuel : Nat} (hfuel : vs.length < fuel) {first : Bool} (done : List α) {r : Reader}
    (hrest : r.rest = L.items indent first vs ++ tail) (hdepth : r.depth = depth) :
    Yields (readItems item fuel first done r) ((vs.mapM g).map (done.reverse ++ ·)) (']' :: tail)
      depth := by
  induction vs generalizing fuel first done r with
  | nil =>
      obtain ⟨fuel, rfl⟩ := Nat.exists_eq_add_one.mpr hfuel
      rw [Layout.items, List.append_assoc] at hrest
      obtain ⟨r', hnext, hrest', hdepth'⟩ :=
        nextItem_end first (ending_blank L indent first) hrest
      refine ⟨r', ?_, hrest', hdepth'.trans hdepth⟩
      simp [readItems, hnext]
  | cons v vs ih =>
      obtain ⟨fuel, rfl⟩ := Nat.exists_eq_add_one.mpr (Nat.zero_lt_of_lt hfuel)
      obtain ⟨r₁, hnext, hrest₁, hdepth₁⟩ := item_ahead hrest
      have hvalue := hitem v (List.mem_cons_self ..) L (indent + 1) r₁ [] _ (List.forall_mem_nil _)
        hrest₁ (closes_items L indent vs tail) (hdepth₁.trans hdepth)
      have heq : ((v :: vs).mapM g).map (done.reverse ++ ·) =
          (g v).bind fun a => (vs.mapM g).map ((a :: done).reverse ++ ·) := by
        cases hg : g v with
        | none => simp [hg]
        | some a => cases hgs : vs.mapM g <;> simp [hg, hgs]
      rw [heq]
      refine hvalue.bind (fun f hf => ⟨f, by simp only [readItems, hnext, hf]⟩) ?_
      intro a r₂ hr₂ hrest₂ hdepth₂
      simp only [readItems, hnext, hr₂]
      exact ih (fun w hw => hitem w (List.mem_cons_of_mem _ hw)) (Nat.lt_of_succ_lt_succ hfuel)
        (a :: done) hrest₂ hdepth₂

theorem readItems_all {item : Read α} {g : Written → Option α} {L : Layout} {indent : Nat}
    {vs : List Written} (hitem : ∀ v ∈ vs, Settles item depth v (g v))
    {first : Bool} {r : Reader} (hrest : r.rest = L.items indent first vs ++ tail)
    (hdepth : r.depth = depth) :
    Yields (readItems item (r.rest.length + 1) first [] r) (vs.mapM g) (']' :: tail) depth := by
  have hfuel : vs.length < r.rest.length + 1 := by
    have hlt := length_lt_items L indent first vs
    rw [hrest, List.length_append]
    omega
  have hread := readItems_yields L indent hitem hfuel [] hrest hdepth
  have hid : (vs.mapM g).map ([].reverse ++ ·) = vs.mapM g := by
    cases vs.mapM g <;> rfl
  rwa [hid] at hread

/-- A reading step for the members of an object, where it stands before the colon of one. -/
def StepsTo (member : String → σ → Read σ) (depth : Nat) (step : σ → String × Written → Option σ)
    (m : String × Written) : Prop :=
  ∀ (L : Layout) (indent : Nat) (s : σ) (r : Reader) (tail : List Char),
    r.rest = ':' :: (L.colon ++ (L.chars indent m.2 ++ tail)) → Closes tail → r.depth = depth →
    Yields (member m.1 s r) (step s m) tail depth

theorem readMembers_yields {member : String → σ → Read σ} {step : σ → String × Written → Option σ}
    (L : Layout) (indent : Nat) {ms : List (String × Written)}
    (hstep : ∀ m ∈ ms, StepsTo member depth step m) {fuel : Nat} (hfuel : ms.length < fuel)
    {first : Bool} (s : σ) {r : Reader} (hrest : r.rest = L.members indent first ms ++ tail)
    (hdepth : r.depth = depth) :
    Yields (readMembers member fuel first s r) (ms.foldlM step s) ('\x7d' :: tail) depth := by
  induction ms generalizing fuel first s r with
  | nil =>
      obtain ⟨fuel, rfl⟩ := Nat.exists_eq_add_one.mpr hfuel
      rw [Layout.members, List.append_assoc] at hrest
      obtain ⟨r', hnext, hrest', hdepth'⟩ :=
        nextKey_end first (ending_blank L indent first) hrest
      refine ⟨r', ?_, hrest', hdepth'.trans hdepth⟩
      simp only [readMembers, hnext]
  | cons m ms ih =>
      obtain ⟨fuel, rfl⟩ := Nat.exists_eq_add_one.mpr (Nat.zero_lt_of_lt hfuel)
      have hopen : r.rest = Layout.opening first ++ (L.item (indent + 1) ++ (quote m.1 ++
          (':' :: (L.colon ++ (L.chars (indent + 1) m.2 ++
            (L.members indent false ms ++ tail)))))) := by
        rw [hrest, Layout.members]
        simp
      obtain ⟨r₁, hnext, hrest₁, hdepth₁⟩ := nextKey_takes (L.item_blank (indent + 1)) hopen
      have hmember := hstep m (List.mem_cons_self ..) L (indent + 1) s r₁ _ hrest₁
        (closes_members L indent ms tail) (hdepth₁.trans hdepth)
      rw [List.foldlM_cons]
      refine hmember.bind (fun f hf => ⟨f, by simp only [readMembers, hnext, hf]⟩) ?_
      intro s r₂ hr₂ hrest₂ hdepth₂
      simp only [readMembers, hnext, hr₂]
      exact ih (fun m hm => hstep m (List.mem_cons_of_mem _ hm)) (Nat.lt_of_succ_lt_succ hfuel) s
        hrest₂ hdepth₂

/-- All members of an object are read, where the reader stands behind the brace. -/
theorem readMembers_all {member : String → σ → Read σ} {step : σ → String × Written → Option σ}
    {L : Layout} {indent : Nat} {ms : List (String × Written)}
    (hstep : ∀ m ∈ ms, StepsTo member depth step m) (s : σ) {r : Reader}
    (hrest : r.rest = L.members indent true ms ++ tail) (hdepth : r.depth = depth) :
    Yields (readMembers member (r.rest.length + 1) true s r) (ms.foldlM step s) ('\x7d' :: tail)
      depth := by
  have hfuel : ms.length < r.rest.length + 1 := by
    have hlt := length_lt_members L indent true ms
    rw [hrest, List.length_append]
    omega
  exact readMembers_yields L indent hstep hfuel s hrest hdepth

/-- The reading step of a member whose key and value are kept. -/
def readEntry (read : Read α) (k : String) (done : List (String × α)) : Read (List (String × α)) :=
  fun r =>
    match readColon r with
    | .error f => .error f
    | .ok (_, r) =>
      match read r with
      | .ok (a, r) => .ok ((k, a) :: done, r)
      | .error f => .error f

/-- The members of an object, each read by itself. -/
def entriesOf {ν : Type} (g : Document ν → Option α) (ms : List (String × Document ν)) :
    Option (List (String × α)) :=
  ms.mapM fun m => (g m.2).map (m.1, ·)

theorem foldlM_entries {ν : Type} (g : Document ν → Option α) (ms : List (String × Document ν)) :
    ms.foldlM (fun done m => (g m.2).map fun a => (m.1, a) :: done) [] =
      (entriesOf g ms).map List.reverse := by
  have hfold (done : List (String × α)) :
      ms.foldlM (fun done m => (g m.2).map fun a => (m.1, a) :: done) done =
        (entriesOf g ms).map (·.reverse ++ done) := by
    induction ms generalizing done with
    | nil => rfl
    | cons m ms ih =>
        rw [entriesOf] at ih ⊢
        rw [List.foldlM_cons, List.mapM_cons]
        cases g m.2 with
        | none => rfl
        | some a =>
            refine (ih ((m.1, a) :: done)).trans ?_
            cases ms.mapM fun m => (g m.2).map (m.1, ·) <;> simp
  rw [hfold]
  cases entriesOf g ms <;> simp

/-- All members of an object are kept, latest first. -/
theorem readEntries_all {read : Read α} {g : Written → Option α} {L : Layout} {indent : Nat}
    {member : String → List (String × α) → Read (List (String × α))}
    (hmember : ∀ k done r, member k done r = readEntry read k done r)
    {ms : List (String × Written)} (hvalue : ∀ m ∈ ms, Settles read depth m.2 (g m.2)) {r : Reader}
    (hrest : r.rest = L.members indent true ms ++ tail) (hdepth : r.depth = depth) :
    Yields (readMembers member (r.rest.length + 1) true [] r)
      ((entriesOf g ms).map List.reverse) ('\x7d' :: tail) depth := by
  rw [← foldlM_entries]
  refine readMembers_all ?_ [] hrest hdepth
  intro m hm L indent done r tail hrest htail hdepth
  obtain ⟨hcolon, hread⟩ := (hvalue m hm).behindColon hrest htail hdepth
  rw [hmember]
  exact hread.map (fun e he => ⟨e, by simp only [readEntry, hcolon, he]⟩)
    fun a r' hr' => by simp only [readEntry, hcolon, hr']

/-- What is left of a result where a container must be entered first. -/
def within (depth : Nat) (a? : Option α) : Option α := if depth ≤ 1 then none else a?

@[simp] theorem within_none (depth : Nat) : within depth (none : Option α) = none := ite_self _

theorem within_map (depth : Nat) (f : α → σ) (a? : Option α) :
    within depth (a?.map f) = (within depth a?).map f := by
  rw [within, within]
  split <;> rfl

theorem within_bind (depth : Nat) (f : α → Option σ) (a? : Option α) :
    within depth (a?.bind f) = (within depth a?).bind f := by
  rw [within, within]
  split <;> rfl

/-- What is read of a container's body where the container is then closed. -/
def closed (close : Reader → Option Fault × Reader) (x : Except Fault (α × Reader)) :
    Except Fault (α × Reader) :=
  match x with
  | .error f => .error f
  | .ok (a, r) =>
    match close r with
    | (some f, _) => .error f
    | (none, r) => .ok (a, r)

theorem Yields.closed {close : Reader → Option Fault × Reader} {x : Except Fault (α × Reader)}
    {a? : Option α} {bracket : Char} (hx : Yields x a? (bracket :: tail) depth)
    (hclose : ∀ r : Reader, r.rest = bracket :: tail → close r = (none, r.skip)) :
    Yields (closed close x) a? tail depth := by
  cases a? with
  | none =>
      obtain ⟨f, rfl⟩ := hx
      exact ⟨f, rfl⟩
  | some a =>
      obtain ⟨r, rfl, hrest, hdepth⟩ := hx
      refine ⟨r.skip, ?_, Reader.rest_skip hrest, r.depth_skip.trans hdepth⟩
      simp only [Json.closed, hclose r hrest]

theorem readContainer_yields {close : Reader → Option Fault × Reader} {body : Read α}
    {a? : Option α} {bracket : Char} {inner : List Char} {r : Reader}
    (hrest : r.rest = bracket :: inner) (hdepth : r.depth = depth)
    (hbody : ∀ r' : Reader, r'.rest = inner → r'.depth = depth - 1 →
      Yields (closed close (body r')) a? tail (depth - 1)) :
    Yields (readContainer close body r) (within depth a?) tail depth := by
  by_cases hlevel : depth ≤ 1
  · rw [within, if_pos hlevel, readContainer, if_pos (hdepth ▸ hlevel)]
    exact yields_failAhead ..
  · have hinner := hbody { r.skip with depth := r.depth - 1 } (Reader.rest_skip hrest)
      (congrArg (· - 1) hdepth)
    rw [within, if_neg hlevel, readContainer, if_neg (hdepth ▸ hlevel)]
    rcases hread : body { r.skip with depth := r.depth - 1 } with f | ⟨b, r'⟩
    · rw [hread] at hinner
      cases a? with
      | none => cases f <;> exact ⟨_, rfl⟩
      | some a =>
          obtain ⟨_, hok, -⟩ := hinner
          cases hok
    · rcases hclose : close r' with ⟨_ | f, r''⟩
      · simp only [hread, closed, hclose] at hinner ⊢
        cases a? with
        | none =>
            obtain ⟨_, herror⟩ := hinner
            cases herror
        | some a =>
            obtain ⟨_, hok, hbehind, -⟩ := hinner
            cases hok
            exact ⟨_, rfl, hbehind, hdepth⟩
      · simp only [hread, closed, hclose] at hinner ⊢
        cases a? with
        | none => exact ⟨f, rfl⟩
        | some a =>
            obtain ⟨_, hok, -⟩ := hinner
            cases hok

theorem closeList_takes {r : Reader} (h : r.rest = ']' :: tail) : closeList r = (none, r.skip) := by
  simp only [closeList, Reader.skipBlanks_eq h rfl, Reader.peek?_eq h]

theorem closeObject_takes {r : Reader} (h : r.rest = '\x7d' :: tail) :
    closeObject r = (none, r.skip) := by
  simp only [closeObject, Reader.skipBlanks_eq h rfl, Reader.peek?_eq h]

end Containers

end ScriptSandbox.Json
