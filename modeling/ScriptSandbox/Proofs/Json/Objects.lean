import Mathlib.Data.List.TakeWhile
import ScriptSandbox.Proofs.Json.Records

/-!
# Objects that are read however they are written

The texts of an object (`ObjectText`) are all that name its members in their order: with blanks
wherever they may stand and with keys written in any way. What a decoder makes of a text it makes
wherever the text stands (`Reads`). A record is read of every text of an object whose members fill its
draft one after another (`record_reads`): a field by what is read of its value, and any other member by
being passed over.
-/

namespace ScriptSandbox.Json

open Decoder

variable {α β σ : Type}

/-- A value is read of a text, wherever it stands with so many levels left. -/
def Reads (read : Read α) (depth : Nat) (text : List Char) (a : α) : Prop :=
  ∀ (r : Reader) (blanks tail : List Char), Blank blanks → r.rest = blanks ++ (text ++ tail) →
    Closes tail → r.depth = depth → Yields (read r) (some a) tail depth

section

variable {depth : Nat} {text : List Char} {a : α}

theorem Settles.reads {read : Read α} {v : Written} (h : Settles read depth v (some a)) (L : Layout)
    (indent : Nat) : Reads read depth (L.chars indent v) a :=
  fun r blanks tail hblanks hrest htail hdepth => h L indent r blanks tail hblanks hrest htail hdepth

theorem Reads.map {d : Decoder α} (h : Reads d.read depth text a) (f : α → β) :
    Reads (d.map f).read depth text (f a) := by
  intro r blanks tail hblanks hrest htail hdepth
  obtain ⟨r', hread, hrest', hdepth'⟩ := h r blanks tail hblanks hrest htail hdepth
  exact ⟨r', by simp only [Decoder.map, hread], hrest', hdepth'⟩

theorem Reads.run {d : Decoder α} (h : Reads d.read 128 text a) {before after : List Char}
    (hbefore : Blank before) (hafter : Blank after) :
    d.run (String.ofList (before ++ (text ++ after))) = .ok a := by
  have hcloses : Closes after := by
    have h := closes_nil.blanks hafter
    rwa [List.append_nil] at h
  have hrest : (Reader.start (String.ofList (before ++ (text ++ after)))).rest =
      before ++ (text ++ after) := String.toList_ofList
  obtain ⟨r, hread, hend, -⟩ := h _ before after hbefore hrest hcloses rfl
  have hblanks : r.skipBlanks.rest = [] := by
    rw [Reader.skipBlanks, hend, List.takeWhile_eq_self_iff.mpr hafter]
    exact Reader.rest_skipMany after (hend.trans (List.append_nil after).symm)
  simp only [Decoder.run, hread, hblanks, List.isEmpty_nil, if_true]

theorem text_reads {s : String} (hs : StringText s text) : Reads Decoder.text.read depth text s := by
  intro r blanks tail hblanks hrest htail hdepth
  obtain ⟨inner, -, hquote⟩ := id hs
  have hcons : text ++ tail = '"' :: (inner ++ ['"'] ++ tail) := by rw [hquote]; rfl
  obtain ⟨hbehind, hdepth'⟩ := Reader.skipBlanks_takes hblanks (hcons ▸ hrest) rfl
  obtain ⟨r', hread, hrest', hdepth''⟩ := readString_spelled hs (hbehind.trans hcons.symm)
  refine ⟨r', ?_, hrest', hdepth''.trans (hdepth'.trans hdepth)⟩
  simp only [Decoder.text, aheadOr, Reader.peek?_eq hbehind, beq_self_eq_true, if_true, hread]

theorem natural_reads (kind : String) {n : Nat} (hn : n < Nat.pow 2 64) :
    Reads (natural kind).read depth (Decimal.digitChars n) n := by
  have hsettles : Settles (natural kind).read depth (.number (.plain false n)) _ :=
    natural_settles kind
  rw [naturalOf, number?_plain hn] at hsettles
  have hreads := Settles.reads hsettles .compact 0
  rwa [Layout.chars, Numeral.chars, Numeral.magnitude_plain] at hreads

theorem ignoreValue_reads (h : JsonText text) : Reads ignoreValue depth text () := by
  intro r blanks tail hblanks hrest htail hdepth
  obtain ⟨fuel, r', hpass, hbehind, hdepth', -⟩ :=
    h.skippable (2 * r.rest.length + 2) [] r blanks tail hblanks hrest htail (by omega)
  exact ⟨r', hpass, hbehind, hdepth'.trans hdepth⟩

end

/-! ## Members -/

/-- The members of an object fill the draft of a record. -/
inductive Fills (fields : List (Decoder.Field σ)) (depth : Nat) :
    σ → List (String × List Char) → σ → Prop
  | nil (s : σ) : Fills fields depth s [] s
  | field {s s' : σ} {k : String} {text : List Char} {ms : List (String × List Char)}
      {f : Decoder.Field σ} {put : σ → σ} (hfield : fieldNamed? fields k = some f) (hgiven : f.given s = false)
      (hread : Reads f.value.read depth text put) (hms : Fills fields depth (put s) ms s') :
      Fills fields depth s ((k, text) :: ms) s'
  | other {s s' : σ} {k : String} {text : List Char} {ms : List (String × List Char)}
      (hfield : fieldNamed? fields k = none) (htext : JsonText text)
      (hms : Fills fields depth s ms s') :
      Fills fields depth s ((k, text) :: ms) s'

section

variable {fields : List (Decoder.Field σ)} {depth : Nat}

theorem length_lt_entriesText {ms : List (String × List Char)} {es : List Entry}
    (hes : List.Forall₂ Names ms es) (first : Bool) (gap : List Char) :
    es.length < (entriesText '\x7d' first gap es).length := by
  induction hes generalizing first gap with
  | nil =>
      rw [entriesText, List.length_append]
      exact Nat.lt_add_left _ Nat.one_pos
  | @cons m e ms es he _ ih =>
      have hrest := ih false e.after
      obtain ⟨-, key, -, mid, mid', -, -, hlabel⟩ := he
      have hlength := congrArg List.length hlabel
      simp only [entriesText, List.length_append, List.length_cons] at hlength ⊢
      omega

theorem member_ahead {m : String × List Char} {e : Entry} (he : Names m e) {es : List Entry}
    {gap : List Char} (hgap : Blank gap) {first : Bool} {r : Reader} {tail : List Char}
    (hrest : r.rest = entriesText '\x7d' first gap (e :: es) ++ tail) :
    ∃ r₁ r₂ blanks, nextKey first r = .ok (some m.1, r₁) ∧ readColon r₁ = .ok ((), r₂) ∧
      Blank blanks ∧ r₁.depth = r.depth ∧ r₂.depth = r.depth ∧
      r₂.rest = blanks ++ (m.2 ++ (entriesText '\x7d' false e.after es ++ tail)) := by
  obtain ⟨htext, key, hkey, mid, mid', hmid, hmid', hlabel⟩ := he
  have hopen : r.rest = leading first gap ++ (e.before ++ (key ++ (mid ++ ':' ::
      (mid' ++ (m.2 ++ (entriesText '\x7d' false e.after es ++ tail)))))) := by
    rw [hrest, entriesText, htext, hlabel]
    simp
  obtain ⟨r₁, hnext, hrest₁, hdepth₁⟩ := nextKey_spelled hgap e.before_blank hkey hopen
  obtain ⟨hcolon, hrest₂, hdepth₂⟩ := readColon_spelled hmid hrest₁
  exact ⟨r₁, _, mid', hnext, hcolon, hmid', hdepth₁, hdepth₂.trans hdepth₁, hrest₂⟩

theorem readMembers_fills {s s' : σ} {ms : List (String × List Char)} (h : Fills fields depth s ms s')
    {es : List Entry} (hes : List.Forall₂ Names ms es) {gap : List Char} (hgap : Blank gap) {fuel : Nat}
    (hfuel : es.length < fuel) {first : Bool} {r : Reader} {tail : List Char}
    (hrest : r.rest = entriesText '\x7d' first gap es ++ tail) (hdepth : r.depth = depth) :
    Yields (readMembers (readMember fields) fuel first s r) (some s') ('\x7d' :: tail) depth := by
  induction h generalizing es gap fuel first r with
  | nil s =>
      cases hes
      obtain ⟨fuel, rfl⟩ := Nat.exists_eq_add_one.mpr hfuel
      rw [entriesText, List.append_assoc] at hrest
      obtain ⟨r', hnext, hrest', hdepth'⟩ := nextKey_end first hgap hrest
      refine ⟨r', ?_, hrest', hdepth'.trans hdepth⟩
      simp only [readMembers, hnext]
  | @field s s' k text ms f put hfield hgiven hread _ ih =>
      rcases hes with _ | @⟨_, e, _, es, he, hes⟩
      obtain ⟨fuel, rfl⟩ := Nat.exists_eq_add_one.mpr (Nat.zero_lt_of_lt hfuel)
      obtain ⟨r₁, r₂, blanks, hnext, hcolon, hblanks, -, hdepth₂, hrest₂⟩ := member_ahead he hgap hrest
      obtain ⟨r₃, hvalue, hrest₃, hdepth₃⟩ := hread r₂ blanks _ hblanks hrest₂
        (closes_entriesText (by decide) e.after_blank) (hdepth₂.trans hdepth)
      simp only [readMembers, hnext, readMember, hfield, hgiven, hcolon, hvalue, Bool.false_eq_true,
        if_false]
      exact ih hes e.after_blank (Nat.lt_of_succ_lt_succ hfuel) hrest₃ hdepth₃
  | @other s s' k text ms hfield htext _ ih =>
      rcases hes with _ | @⟨_, e, _, es, he, hes⟩
      obtain ⟨fuel, rfl⟩ := Nat.exists_eq_add_one.mpr (Nat.zero_lt_of_lt hfuel)
      obtain ⟨r₁, r₂, blanks, hnext, hcolon, hblanks, -, hdepth₂, hrest₂⟩ := member_ahead he hgap hrest
      obtain ⟨r₃, hvalue, hrest₃, hdepth₃⟩ := ignoreValue_reads htext r₂ blanks _ hblanks hrest₂
        (closes_entriesText (by decide) e.after_blank) (hdepth₂.trans hdepth)
      simp only [readMembers, hnext, readMember, hfield, hcolon, hvalue]
      exact ih hes e.after_blank (Nat.lt_of_succ_lt_succ hfuel) hrest₃ hdepth₃

theorem record_reads {ms : List (String × List Char)} {text : List Char} (htext : ObjectText ms text)
    (title : String) {blank s : σ} (finish : σ → α) (h : Fills fields (depth - 1) blank ms s)
    (hmissing : missing? fields s = none) (hdepth : 1 < depth) :
    Reads (record title fields blank finish).read depth text (finish s) := by
  obtain ⟨gap, es, hgap, hes, rfl⟩ := htext
  intro r blanks tail hblanks hrest htail hlevel
  have hopen : r.rest = blanks ++ '\x7b' :: (entriesText '\x7d' true gap es ++ tail) := hrest
  obtain ⟨hbehind, hdepth'⟩ := Reader.skipBlanks_takes hblanks hopen rfl
  have hwithin : within depth (some s) = some s := if_neg (Nat.not_le_of_gt hdepth)
  simp only [record, aheadOr, Reader.peek?_eq hbehind]
  rw [if_neg (by decide), if_pos (by decide)]
  generalize hx : readContainer closeObject _ r.skipBlanks = x
  have hread : Yields x (some s) tail depth := by
    rw [← hx, ← hwithin]
    refine readContainer_yields hbehind (hdepth'.trans hlevel) fun r' hrest' hdepth₁ =>
      Yields.closed ?_ fun _ => closeObject_takes
    have hfuel : es.length < r'.rest.length + 1 := by
      have hlt := length_lt_entriesText hes true gap
      rw [hrest', List.length_append]
      omega
    obtain ⟨r₁, hmembers, hrest₁, hdepth₂⟩ := readMembers_fills h hes hgap hfuel hrest' hdepth₁
    exact ⟨r₁, by simp only [hmembers, hmissing], hrest₁, hdepth₂⟩
  obtain ⟨r₁, rfl, hrest₁, hdepth₁⟩ := hread
  exact ⟨r₁, rfl, hrest₁, hdepth₁⟩

end

end ScriptSandbox.Json
