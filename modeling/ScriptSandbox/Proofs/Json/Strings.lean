import Mathlib.Data.String.Basic
import ScriptSandbox.Json.Decoder
import ScriptSandbox.Proofs.Json.Layout

/-!
# Strings that are read back

A string may be written in many ways, because each of its characters may stand for itself or be
written as an escape (`Spells`). Where a reader stands before a string, however it is written, it reads
the string, whatever characters it has, and comes to stand behind it (`readString_spelled`). A reader
that only passes over what is between quotes comes to stand there too, even where an escape stands for
half a character (`ignoreString_quoted`). A string as it goes out is one way to write it
(`stringText_quote`).

The line and the column that a reader has reached are of no concern here.
-/

namespace ScriptSandbox.Json

/-! ## Where a reader comes to stand -/

namespace Reader

theorem rest_skip {r : Reader} {c : Char} {tail : List Char} (h : r.rest = c :: tail) :
    r.skip.rest = tail := by
  rw [skip, h]
  simp only
  split <;> rfl

@[simp] theorem depth_skip (r : Reader) : r.skip.depth = r.depth := by
  rw [skip]
  split
  · rfl
  · split <;> rfl

theorem rest_skipMany {r : Reader} (text : List Char) {tail : List Char}
    (h : r.rest = text ++ tail) :
    (skipMany text.length r).rest = tail := by
  induction text generalizing r with
  | nil => exact h
  | cons c text ih => exact ih (rest_skip h)

@[simp] theorem depth_skipMany (n : Nat) (r : Reader) : (skipMany n r).depth = r.depth := by
  induction n generalizing r with
  | zero => rfl
  | succ n ih => exact (ih r.skip).trans r.depth_skip

theorem skipBlanks_eq {r : Reader} {c : Char} {tail : List Char} (h : r.rest = c :: tail)
    (hc : isBlank c = false) : r.skipBlanks = r := by
  rw [skipBlanks, h, List.takeWhile_cons_of_neg (by simp [hc])]
  rfl

/-- Behind the blanks ahead, the reader stands where they end. -/
theorem skipBlanks_takes {r : Reader} {blanks : List Char} (hblanks : Blank blanks) {c : Char}
    {tail : List Char} (h : r.rest = blanks ++ c :: tail) (hc : isBlank c = false) :
    r.skipBlanks.rest = c :: tail ∧ r.skipBlanks.depth = r.depth := by
  have htake : (blanks ++ c :: tail).takeWhile isBlank = blanks := by
    rw [List.takeWhile_append_of_pos hblanks, List.takeWhile_cons_of_neg (by simp [hc]),
      List.append_nil]
  rw [skipBlanks, h, htake]
  exact ⟨rest_skipMany blanks h, r.depth_skipMany _⟩

theorem peek?_eq {r : Reader} {c : Char} {tail : List Char} (h : r.rest = c :: tail) :
    r.peek? = some c := by
  rw [peek?, h]
  rfl

theorem map_failAhead {α β : Type} (f : α → β) (r : Reader) (reason : Reason) :
    (r.failAhead reason).map f = r.failAhead reason := by
  simp only [failAhead, fail]
  split
  · rfl
  · split <;> rfl

end Reader

theorem readWord_takes (w : List Char) {tail : List Char} {r : Reader} (h : r.rest = w ++ tail) :
    ∃ r', readWord w r = .ok ((), r') ∧ r'.rest = tail ∧ r'.depth = r.depth := by
  induction w generalizing r with
  | nil => exact ⟨r, rfl, h, rfl⟩
  | cons c w ih =>
      obtain ⟨r', hread, hrest, hdepth⟩ := ih (Reader.rest_skip h)
      refine ⟨r', ?_, hrest, hdepth.trans r.depth_skip⟩
      rw [readWord, h]
      simp only [List.cons_append, beq_self_eq_true, if_true, hread]

/-! ## Escapes -/

theorem length_le_utf8Len (cs : List Char) : cs.length ≤ String.utf8Len cs := by
  induction cs with
  | nil => exact Nat.le_refl 0
  | cons c cs ih =>
      have hc := c.utf8Size_pos
      rw [List.length_cons, String.utf8Len_cons]
      omega

/-- Four hexadecimal digits are read as their value. -/
theorem readHex4_takes {r : Reader} {ds tail : List Char} {n : Nat} (hlength : ds.length = 4)
    (hds : hex4? ds = some n) (h : r.rest = ds ++ tail) :
    readHex4 r = .ok (n, r.skipMany 4) ∧ (r.skipMany 4).rest = tail := by
  obtain ⟨a, b, c, d, rfl⟩ : ∃ a b c d, ds = [a, b, c, d] := by
    match ds, hlength with
    | [a, b, c, d], _ => exact ⟨a, b, c, d, rfl⟩
  have hlong : ¬ (String.ofList r.rest).utf8ByteSize < 4 := by
    have hbytes := length_le_utf8Len r.rest
    rw [h] at hbytes
    rw [String.utf8ByteSize_ofList, h]
    simp only [List.cons_append, List.nil_append, List.length_cons] at hbytes ⊢
    omega
  have hvalue : hex4? r.rest = some n := by
    rw [h]
    exact hds
  exact ⟨by rw [readHex4, if_neg hlong, hvalue], Reader.rest_skipMany [a, b, c, d] h⟩

/-- The code of a character is not one of the halves that two escapes are put together from. -/
theorem toNat_not_half (c : Char) : c.toNat < 0xD800 ∨ 0xDFFF < c.toNat := by
  rcases c.valid with h | ⟨h, -⟩
  · exact .inl h
  · exact .inr h

/-- An escape by code stands for its character. -/
theorem readUnicode_code {r : Reader} {c : Char} {ds tail : List Char} (hlength : ds.length = 4)
    (hds : hex4? ds = some c.toNat) (h : r.rest = ds ++ tail) :
    ∃ r', readUnicode r = .ok (c, r') ∧ r'.rest = tail ∧ r'.depth = r.depth := by
  obtain ⟨hread, hrest⟩ := readHex4_takes hlength hds h
  have hcode := toNat_not_half c
  have hlow : (0xDC00 ≤ c.toNat && c.toNat ≤ 0xDFFF) = false := by
    simp only [Bool.and_eq_false_iff, decide_eq_false_iff_not]
    omega
  have hplain : (c.toNat < 0xD800 || c.toNat > 0xDBFF) = true := by
    simp only [Bool.or_eq_true, decide_eq_true_eq]
    omega
  refine ⟨r.skipMany 4, ?_, hrest, r.depth_skipMany 4⟩
  simp only [readUnicode, hread, bind, Except.bind]
  rw [hlow, if_neg Bool.false_ne_true, if_pos hplain, Char.ofNat_toNat]

/-- Two escapes by code stand for one character, each for half of it. -/
theorem readUnicode_halves {r : Reader} {c : Char} {ds es tail : List Char} {high low : Nat}
    (hlength : ds.length = 4) (hlength' : es.length = 4) (hds : hex4? ds = some high)
    (hes : hex4? es = some low) (hhigh : 0xD800 ≤ high ∧ high ≤ 0xDBFF)
    (hlow : 0xDC00 ≤ low ∧ low ≤ 0xDFFF)
    (hc : c.toNat = 0x10000 + (high - 0xD800) * 0x400 + (low - 0xDC00))
    (h : r.rest = ds ++ '\\' :: 'u' :: (es ++ tail)) :
    ∃ r', readUnicode r = .ok (c, r') ∧ r'.rest = tail ∧ r'.depth = r.depth := by
  obtain ⟨hread, hrest⟩ := readHex4_takes hlength hds h
  have hu := Reader.rest_skip hrest
  obtain ⟨hread', hrest'⟩ := readHex4_takes hlength' hes (Reader.rest_skip hu)
  have hnot : (0xDC00 ≤ high && high ≤ 0xDFFF) = false := by
    simp only [Bool.and_eq_false_iff, decide_eq_false_iff_not]
    omega
  have hhalf : (high < 0xD800 || high > 0xDBFF) = false := by
    simp only [Bool.or_eq_false_iff, decide_eq_false_iff_not]
    omega
  have hhalf' : (low < 0xDC00 || low > 0xDFFF) = false := by
    simp only [Bool.or_eq_false_iff, decide_eq_false_iff_not]
    omega
  refine ⟨(r.skipMany 4).skip.skip.skipMany 4, ?_, hrest', by simp⟩
  simp only [readUnicode, hread, hread', bind, Except.bind, hnot, hhalf, hhalf', Reader.peek?_eq hrest,
    Reader.peek?_eq hu, bne_self_eq_false, Bool.false_eq_true, if_false]
  rw [← hc, Char.ofNat_toNat]

/-! ## Strings -/

/-- How a character of a string may be written. -/
inductive Spells (c : Char) : List Char → Prop
  | plain (hquote : (c == '"') = false) (hslash : (c == '\\') = false) (hcode : ¬ c.toNat < 32) :
      Spells c [c]
  | escape {e : Char} (h : simpleEscape? e = some c) : Spells c ['\\', e]
  | code {ds : List Char} (hlength : ds.length = 4) (h : hex4? ds = some c.toNat) :
      Spells c ('\\' :: 'u' :: ds)
  | halves {ds es : List Char} {high low : Nat} (hlength : ds.length = 4) (hlength' : es.length = 4)
      (hds : hex4? ds = some high) (hes : hex4? es = some low)
      (hhigh : 0xD800 ≤ high ∧ high ≤ 0xDBFF) (hlow : 0xDC00 ≤ low ∧ low ≤ 0xDFFF)
      (hc : c.toNat = 0x10000 + (high - 0xD800) * 0x400 + (low - 0xDC00)) :
      Spells c ('\\' :: 'u' :: (ds ++ '\\' :: 'u' :: es))

/-- How the characters of a string may be written, one after another. -/
inductive Spelled : List Char → List Char → Prop
  | nil : Spelled [] []
  | cons {c : Char} {cs piece text : List Char} (hc : Spells c piece) (hcs : Spelled cs text) :
      Spelled (c :: cs) (piece ++ text)

/-- A way to write a string, with its quotes. -/
def StringText (s : String) (text : List Char) : Prop :=
  ∃ inner, Spelled s.toList inner ∧ text = '"' :: (inner ++ ['"'])

/-- What may stand between quotes. An escape by code may be half a character. -/
inductive Quoted : List Char → Prop
  | nil : Quoted []
  | plain {c : Char} {text : List Char} (hquote : (c == '"') = false) (hslash : (c == '\\') = false)
      (hcode : ¬ c.toNat < 32) (h : Quoted text) : Quoted (c :: text)
  | escape {e : Char} {text : List Char} (he : (simpleEscape? e).isSome = true) (h : Quoted text) :
      Quoted ('\\' :: e :: text)
  | code {ds text : List Char} (hlength : ds.length = 4) (hds : (hex4? ds).isSome = true)
      (h : Quoted text) : Quoted ('\\' :: 'u' :: (ds ++ text))

theorem ne_u_of_simpleEscape? {e : Char} (h : (simpleEscape? e).isSome = true) : (e == 'u') = false := by
  refine beq_eq_false_iff_ne.mpr ?_
  rintro rfl
  cases h

theorem Spelled.quoted {cs text : List Char} (h : Spelled cs text) : Quoted text := by
  induction h with
  | nil => exact .nil
  | cons hc _ ih =>
      cases hc with
      | plain hquote hslash hcode => exact .plain hquote hslash hcode ih
      | escape he => exact .escape (by rw [he]; rfl) ih
      | code hlength hds => exact .code hlength (by rw [hds]; rfl) ih
      | halves hlength hlength' hds hes =>
          rw [List.cons_append, List.cons_append, List.append_assoc]
          exact .code hlength (by rw [hds]; rfl) (.code hlength' (by rw [hes]; rfl) ih)

theorem Spelled.length_le {cs text : List Char} (h : Spelled cs text) : cs.length ≤ text.length := by
  induction h with
  | nil => exact Nat.le_refl 0
  | cons hc _ ih =>
      rw [List.length_append, List.length_cons]
      cases hc <;> simp only [List.length_cons] <;> omega

/-- Reading a string goes on behind each character, however it is written. -/
theorem readStringFrom_spells {fuel : Nat} (done : List Char) {r : Reader} {c : Char}
    {piece tail : List Char} (hc : Spells c piece) (h : r.rest = piece ++ tail) :
    ∃ r', readStringFrom (fuel + 1) done r = readStringFrom fuel (c :: done) r' ∧
      r'.rest = tail ∧ r'.depth = r.depth := by
  cases hc with
  | plain hquote hslash hcode =>
      refine ⟨r.skip, ?_, Reader.rest_skip h, r.depth_skip⟩
      rw [readStringFrom, h]
      simp only [List.cons_append, hquote, hslash, hcode, Bool.false_eq_true, if_false]
  | @escape e he =>
      have hu : (e == 'u') = false := ne_u_of_simpleEscape? (by rw [he]; rfl)
      have hskip := Reader.rest_skip h
      refine ⟨r.skip.skip, ?_, Reader.rest_skip hskip, by simp⟩
      rw [readStringFrom, h]
      simp [hskip, hu, he]
  | code hlength hds =>
      have hskip := Reader.rest_skip h
      obtain ⟨r', hread, hrest, hdepth⟩ := readUnicode_code hlength hds (Reader.rest_skip hskip)
      refine ⟨r', ?_, hrest, hdepth.trans (by simp)⟩
      rw [readStringFrom, h]
      simp [hskip, hread]
  | halves hlength hlength' hds hes hhigh hlow hcode =>
      have hskip := Reader.rest_skip h
      obtain ⟨r', hread, hrest, hdepth⟩ := readUnicode_halves hlength hlength' hds hes hhigh hlow hcode
        ((Reader.rest_skip hskip).trans (List.append_assoc ..))
      refine ⟨r', ?_, hrest, hdepth.trans (by simp)⟩
      rw [readStringFrom, h]
      simp [hskip, hread]

theorem readStringFrom_takes {fuel : Nat} (done : List Char) {r : Reader} {cs text tail : List Char}
    (hspelled : Spelled cs text) (hfuel : cs.length < fuel) (h : r.rest = text ++ '"' :: tail) :
    ∃ r', readStringFrom fuel done r = .ok (String.ofList (done.reverse ++ cs), r') ∧
      r'.rest = tail ∧ r'.depth = r.depth := by
  induction hspelled generalizing fuel done r with
  | nil =>
      obtain ⟨fuel, rfl⟩ := Nat.exists_eq_add_of_lt hfuel
      refine ⟨r.skip, ?_, Reader.rest_skip h, r.depth_skip⟩
      rw [readStringFrom, h]
      simp
  | cons hc _ ih =>
      obtain ⟨fuel, rfl⟩ := Nat.exists_eq_add_of_lt (Nat.zero_lt_of_lt hfuel)
      rw [List.append_assoc] at h
      obtain ⟨r₁, hstep, hrest₁, hdepth₁⟩ := readStringFrom_spells done hc h
      obtain ⟨r₂, hread, hrest₂, hdepth₂⟩ := ih (_ :: done) (by simpa using hfuel) hrest₁
      refine ⟨r₂, ?_, hrest₂, hdepth₂.trans hdepth₁⟩
      rw [Nat.zero_add, hstep, hread, List.reverse_cons, List.append_assoc]
      rfl

/-- However a string is written, it is read behind its opening quote. -/
theorem readString_spelled {r : Reader} {s : String} {text tail : List Char} (hs : StringText s text)
    (h : r.rest = text ++ tail) :
    ∃ r', readString r.skip = .ok (s, r') ∧ r'.rest = tail ∧ r'.depth = r.depth := by
  obtain ⟨inner, hspelled, rfl⟩ := hs
  have hbehind : r.skip.rest = inner ++ '"' :: tail :=
    (Reader.rest_skip h).trans (List.append_assoc ..)
  have hfuel : s.toList.length < r.skip.rest.length + 1 := by
    have hle := hspelled.length_le
    rw [hbehind, List.length_append]
    omega
  obtain ⟨r', hread, hrest, hdepth⟩ := readStringFrom_takes [] hspelled hfuel hbehind
  refine ⟨r', ?_, hrest, hdepth.trans r.depth_skip⟩
  rw [readString, hread, List.reverse_nil, List.nil_append, String.ofList_toList]

theorem ignoreStringFrom_takes {fuel : Nat} {r : Reader} {text tail : List Char}
    (hquoted : Quoted text) (hfuel : text.length < fuel) (h : r.rest = text ++ '"' :: tail) :
    ∃ r', ignoreStringFrom fuel r = .ok ((), r') ∧ r'.rest = tail ∧ r'.depth = r.depth := by
  induction hquoted generalizing fuel r with
  | nil =>
      obtain ⟨fuel, rfl⟩ := Nat.exists_eq_add_of_lt hfuel
      refine ⟨r.skip, ?_, Reader.rest_skip h, r.depth_skip⟩
      rw [ignoreStringFrom, h]
      simp
  | plain hquote hslash hcode _ ih =>
      obtain ⟨fuel, rfl⟩ := Nat.exists_eq_add_of_lt (Nat.zero_lt_of_lt hfuel)
      obtain ⟨r', hread, hrest, hdepth⟩ := ih (by simpa using hfuel) (Reader.rest_skip h)
      refine ⟨r', ?_, hrest, hdepth.trans r.depth_skip⟩
      rw [ignoreStringFrom, h]
      simp only [List.cons_append, hquote, hslash, hcode, Bool.false_eq_true, if_false]
      rwa [Nat.zero_add]
  | @escape e text he _ ih =>
      obtain ⟨fuel, rfl⟩ := Nat.exists_eq_add_of_lt (Nat.zero_lt_of_lt hfuel)
      have hskip := Reader.rest_skip h
      rw [Nat.zero_add] at hfuel ⊢
      have hleft : text.length < fuel := Nat.lt_of_succ_lt (Nat.lt_of_succ_lt_succ hfuel)
      obtain ⟨r', hread, hrest, hdepth⟩ := ih hleft (Reader.rest_skip hskip)
      refine ⟨r', ?_, hrest, hdepth.trans (by simp)⟩
      rw [ignoreStringFrom, h]
      simp [hskip, ne_u_of_simpleEscape? he, he, hread]
  | @code ds text hlength hds _ ih =>
      obtain ⟨fuel, rfl⟩ := Nat.exists_eq_add_of_lt (Nat.zero_lt_of_lt hfuel)
      obtain ⟨n, hn⟩ := Option.isSome_iff_exists.mp hds
      have hskip := Reader.rest_skip h
      obtain ⟨hread, hrest⟩ := readHex4_takes hlength hn
        ((Reader.rest_skip hskip).trans (List.append_assoc ..))
      rw [Nat.zero_add] at hfuel ⊢
      have hleft : text.length < fuel := by
        simp only [List.length_cons, List.length_append] at hfuel
        omega
      obtain ⟨r', hgo, hrest', hdepth⟩ := ih hleft hrest
      refine ⟨r', ?_, hrest', hdepth.trans (by simp)⟩
      rw [ignoreStringFrom, h]
      simp [hskip, hread, hgo]

/-- What is between quotes is passed over behind its opening quote. -/
theorem ignoreString_quoted {r : Reader} {inner tail : List Char} (hquoted : Quoted inner)
    (h : r.rest = '"' :: (inner ++ ['"']) ++ tail) :
    ∃ r', ignoreStringFrom (r.rest.length + 1) r.skip = .ok ((), r') ∧
      r'.rest = tail ∧ r'.depth = r.depth := by
  have hbehind : r.skip.rest = inner ++ '"' :: tail :=
    (Reader.rest_skip h).trans (List.append_assoc ..)
  have hfuel : inner.length < r.rest.length + 1 := by
    rw [h]
    simp only [List.length_append, List.length_cons]
    omega
  obtain ⟨r', hread, hrest, hdepth⟩ := ignoreStringFrom_takes hquoted hfuel hbehind
  exact ⟨r', hread, hrest, hdepth.trans r.depth_skip⟩

/-! ## Strings that go out -/

theorem hexValue?_hexDigit (n : Nat) : hexValue? (hexDigit n) = some (n % 16) := by
  have hall : ∀ k < 16, hexValue? (Nat.digitChar k) = some k := by decide
  exact hall _ (Nat.mod_lt _ (by decide))

/-- Four hexadecimal digits are read back. -/
theorem hex4?_hex4 {n : Nat} (hn : n < 65536) : hex4? (hex4 n) = some n := by
  simp only [hex4, hex4?, hexValue?_hexDigit, Option.bind_eq_bind, Option.bind_some]
  have hsum : ((n / 4096 % 16 * 16 + n / 256 % 16) * 16 + n / 16 % 16) * 16 + n % 16 = n := by
    omega
  exact congrArg some hsum

/-- A character is written as a simple escape, as an escape by code, or as itself. -/
theorem spells_escapeChar (c : Char) : Spells c (escapeChar c) := by
  unfold escapeChar
  split
  case h_8 hquote hslash _ _ _ _ _ =>
    split
    · next hcode => exact .code rfl (hex4?_hex4 (by omega))
    · next hcode =>
        exact .plain (beq_eq_false_iff_ne.mpr hquote) (beq_eq_false_iff_ne.mpr hslash) hcode
  all_goals exact .escape rfl

theorem stringText_quote (s : String) : StringText s (quote s) := by
  have hspelled (cs : List Char) : Spelled cs (cs.flatMap escapeChar) := by
    induction cs with
    | nil => exact .nil
    | cons c cs ih => exact .cons (spells_escapeChar c) ih
  exact ⟨_, hspelled s.toList, rfl⟩

theorem readString_quote {r : Reader} {s : String} {tail : List Char} (h : r.rest = quote s ++ tail) :
    ∃ r', readString r.skip = .ok (s, r') ∧ r'.rest = tail ∧ r'.depth = r.depth :=
  readString_spelled (stringText_quote s) h

end ScriptSandbox.Json
