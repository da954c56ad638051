import ScriptSandbox.Json.Reader

/-!
# Texts of a document

A document may be written with blanks between its parts, and its numbers in many ways: with a point,
with an exponent, with more digits than fit 64 bits. A `Layout` says where the blanks are, and the
number of a `Written` document is a `Numeral`, so that whatever a text says is one of the cases. The
text without blanks and the indented text are written in this way (`compactChars_eq`,
`prettyChars_eq`), so what holds of every layout holds of both.
-/

namespace ScriptSandbox.Json

/-! ## Documents -/

/-- A JSON document with numbers of the kind `ν`. -/
inductive Document (ν : Type) where
  | null
  | bool (b : Bool)
  | number (n : ν)
  | text (s : String)
  | list (items : List (Document ν))
  | object (members : List (String × Document ν))

/-- What holds of a container if it holds of all that is in it holds of every document. -/
@[elab_as_elim]
theorem Document.induct {ν : Type} {P : Document ν → Prop} (null : P .null)
    (bool : ∀ b, P (.bool b)) (number : ∀ n, P (.number n)) (text : ∀ s, P (.text s))
    (list : ∀ vs, (∀ v ∈ vs, P v) → P (.list vs))
    (object : ∀ ms : List (String × Document ν), (∀ m ∈ ms, P m.2) → P (.object ms))
    (v : Document ν) : P v :=
  @Document.rec ν P (fun vs => ∀ v ∈ vs, P v) (fun ms => ∀ m ∈ ms, P m.2) (fun m => P m.2) null bool
    number text list object (List.forall_mem_nil _)
    (fun _ _ hv hvs => List.forall_mem_cons.mpr ⟨hv, hvs⟩) (List.forall_mem_nil _)
    (fun _ _ hm hms => List.forall_mem_cons.mpr ⟨hm, hms⟩) (fun _ _ hv => hv) v

/-- A run of decimal digits. -/
structure Digits where
  chars : List Char
  nonempty : chars ≠ []
  all_digits : ∀ c ∈ chars, ('0' ≤ c && c ≤ '9') = true

/-- What makes a power of ten of a number. -/
structure Exponent where
  /-- Whether the `e` is a capital letter. -/
  capital : Bool
  /-- Whether there is a sign, and whether it is a plus. -/
  plus? : Option Bool
  digits : Digits

/-- A number as a text says it. -/
structure Numeral where
  negative : Bool
  /-- What stands before the point. -/
  whole : Digits
  /-- What stands behind the point, if there is one. -/
  fraction : Option Digits
  exponent : Option Exponent
  /-- No other number than zero begins with a zero. -/
  leading : whole.chars.head? = some '0' → whole.chars = ['0']

/-- A document as a text says it. -/
abbrev Written := Document Numeral

namespace Exponent

def behind (e : Exponent) : List Char :=
  match e.plus? with
  | none => e.digits.chars
  | some true => '+' :: e.digits.chars
  | some false => '-' :: e.digits.chars

def chars (e : Exponent) : List Char := (if e.capital then 'E' else 'e') :: e.behind

end Exponent

namespace Numeral

/-- What stands behind the point or the whole digits. -/
def power (n : Numeral) : List Char :=
  match n.exponent with
  | none => []
  | some e => e.chars

def behind (n : Numeral) : List Char :=
  match n.fraction with
  | none => n.power
  | some ds => '.' :: (ds.chars ++ n.power)

/-- The number without its sign. -/
def magnitude (n : Numeral) : List Char := n.whole.chars ++ n.behind

/-- The text of a number. -/
def chars (n : Numeral) : List Char := if n.negative then '-' :: n.magnitude else n.magnitude

end Numeral

/-! ## Layouts -/

/-- Nothing but blanks. -/
def Blank (cs : List Char) : Prop := ∀ c ∈ cs, Reader.isBlank c = true

/-- Where blanks are written. -/
structure Layout where
  /-- What stands before an item, a member or a closing bracket, at an indentation depth. -/
  item : Nat → List Char
  /-- What stands behind a colon. -/
  colon : List Char
  item_blank : ∀ depth, Blank (item depth)
  colon_blank : Blank colon

namespace Layout

/-- No blanks. -/
def compact : Layout where
  item _ := []
  colon := []
  item_blank _ := List.forall_mem_nil _
  colon_blank := List.forall_mem_nil _

theorem lineBreak_blank (depth : Nat) : Blank (lineBreak depth) := by
  intro c hc
  rcases List.mem_cons.mp hc with rfl | hc
  · rfl
  · rw [List.eq_of_mem_replicate hc]
    rfl

/-- One item or member a line. -/
def pretty : Layout where
  item := lineBreak
  colon := [' ']
  item_blank := lineBreak_blank
  colon_blank := by simp [Blank, Reader.isBlank]

variable (L : Layout)

/-- What stands between an item or a member and the one before it. -/
def opening (first : Bool) : List Char := if first then [] else [',']

/-- What stands before a closing bracket; an empty container has nothing in it. -/
def ending (depth : Nat) (first : Bool) : List Char := if first then [] else L.item depth

mutual

/-- The text of a document. -/
def chars (depth : Nat) : Written → List Char
  | .null => "null".toList
  | .bool true => "true".toList
  | .bool false => "false".toList
  | .number n => n.chars
  | .text s => quote s
  | .list vs => '[' :: items depth true vs
  | .object ms => '\x7b' :: members depth true ms

/-- The items of a list, with the closing bracket. -/
def items (depth : Nat) (first : Bool) : List Written → List Char
  | [] => L.ending depth first ++ [']']
  | v :: vs =>
    opening first ++ (L.item (depth + 1) ++ (chars (depth + 1) v ++ items depth false vs))

/-- The members of an object, with the closing brace. -/
def members (depth : Nat) (first : Bool) : List (String × Written) → List Char
  | [] => L.ending depth first ++ ['\x7d']
  | (k, v) :: ms =>
    opening first ++ (L.item (depth + 1) ++ (quote k ++ (':' ::
      (L.colon ++ (chars (depth + 1) v ++ members depth false ms)))))

end

def text (v : Written) : String := String.ofList (L.chars 0 v)

end Layout

/-! ## The two layouts that are written -/

/-- A number other than zero does not begin with a zero. -/
theorem digitChars_eq_cons {n : Nat} (hn : 0 < n) :
    ∃ d ds, Decimal.digitChars n = d :: ds ∧ ('1' ≤ d && d ≤ '9') = true := by
  induction n using Nat.strongRecOn with
  | ind n ih =>
      by_cases hsmall : n < 10
      · have hdigit : ∀ k < 10, 0 < k → ('1' ≤ k.digitChar && k.digitChar ≤ '9') = true := by decide
        exact ⟨_, [], Nat.toDigits_of_lt_base hsmall, hdigit n hsmall hn⟩
      · obtain ⟨d, ds, hdigits, hd⟩ := ih (n / 10) (by omega) (by omega)
        refine ⟨d, ds ++ [(n % 10).digitChar], ?_, hd⟩
        have hstep := Nat.toDigits_of_base_le (b := 10) (n := n) (by decide) (by omega)
        rw [Decimal.digitChars] at hdigits ⊢
        rw [hstep, hdigits, List.cons_append]

theorem isDigit_eq (c : Char) : ('0' ≤ c && c ≤ '9') = c.isDigit := rfl

def Digits.ofNat (n : Nat) : Digits where
  chars := Decimal.digitChars n
  nonempty := Nat.toDigits_ne_nil
  all_digits c hc := by
    rw [isDigit_eq]
    exact Nat.isDigit_of_mem_toDigits (by decide) (by decide) hc

/-- A whole number, written with nothing but its digits. -/
def Numeral.plain (negative : Bool) (n : Nat) : Numeral where
  negative := negative
  whole := .ofNat n
  fraction := none
  exponent := none
  leading h := by
    rcases Nat.eq_zero_or_pos n with rfl | hn
    · rfl
    · obtain ⟨d, ds, hdigits, hd⟩ := digitChars_eq_cons hn
      have hhead : (Decimal.digitChars n).head? = some '0' := h
      rw [hdigits] at hhead
      cases hhead
      exact absurd hd (by decide)

@[simp] theorem Numeral.magnitude_plain (negative : Bool) (n : Nat) :
    (plain negative n).magnitude = Decimal.digitChars n := List.append_nil _

/-- A document without real numbers. -/
inductive Value.Whole : Value → Prop
  | null : Whole .null
  | bool (b : Bool) : Whole (.bool b)
  | natural (n : Nat) : Whole (.number (.natural n))
  | negative (n : Nat) : Whole (.number (.negative n))
  | text (s : String) : Whole (.text s)
  | list {vs : List Value} (h : ∀ v ∈ vs, Whole v) : Whole (.list vs)
  | object {ms : List (String × Value)} (h : ∀ m ∈ ms, Whole m.2) : Whole (.object ms)

mutual

/-- What the texts of a document say, if there is no real number in it. -/
def Value.written : Value → Written
  | .null => .null
  | .bool b => .bool b
  | .number (.natural n) => .number (.plain false n)
  | .number (.negative n) => .number (.plain true (n + 1))
  | .number (.real _) => .null
  | .text s => .text s
  | .list vs => .list (writtenItems vs)
  | .object ms => .object (writtenMembers ms)

def writtenItems : List Value → List Written
  | [] => []
  | v :: vs => v.written :: writtenItems vs

def writtenMembers : List (String × Value) → List (String × Written)
  | [] => []
  | (k, v) :: ms => (k, v.written) :: writtenMembers ms

end

@[simp] theorem writtenItems_eq (vs : List Value) : writtenItems vs = vs.map Value.written := by
  induction vs with
  | nil => rfl
  | cons v vs ih => rw [writtenItems, ih, List.map_cons]

@[simp] theorem writtenMembers_eq (ms : List (String × Value)) :
    writtenMembers ms = ms.map fun m => (m.1, m.2.written) := by
  induction ms with
  | nil => rfl
  | cons m ms ih => rw [writtenMembers, ih, List.map_cons]

section

variable {depth : Nat}

theorem prettyItems_eq {vs : List Value}
    (h : ∀ v ∈ vs, v.prettyChars (depth + 1) = Layout.pretty.chars (depth + 1) v.written) :
    prettyItems depth vs = Layout.pretty.items depth false (writtenItems vs) := by
  induction vs with
  | nil => rfl
  | cons v vs ih =>
      rw [List.forall_mem_cons] at h
      rw [prettyItems, h.1, ih h.2]
      simp [writtenItems, Layout.items, Layout.opening, Layout.pretty]

theorem prettyMembers_eq {ms : List (String × Value)}
    (h : ∀ m ∈ ms, m.2.prettyChars (depth + 1) = Layout.pretty.chars (depth + 1) m.2.written) :
    prettyMembers depth ms = Layout.pretty.members depth false (writtenMembers ms) := by
  induction ms with
  | nil => rfl
  | cons m ms ih =>
      rw [List.forall_mem_cons] at h
      rw [prettyMembers, h.1, ih h.2]
      simp [writtenMembers, Layout.members, Layout.opening, Layout.pretty]

theorem prettyChars_eq {v : Value} (hv : v.Whole) (depth : Nat) :
    v.prettyChars depth = Layout.pretty.chars depth v.written := by
  induction hv generalizing depth with
  | bool b => cases b <;> rfl
  | @list vs _ ih =>
      cases vs with
      | nil => rfl
      | cons v vs =>
          simp only [List.forall_mem_cons] at ih
          rw [Value.prettyChars, ih.1, prettyItems_eq fun v hv => ih.2 v hv _]
          simp [Value.written, Layout.chars, Layout.items, Layout.opening, Layout.pretty]
  | @object ms _ ih =>
      cases ms with
      | nil => rfl
      | cons m ms =>
          simp only [List.forall_mem_cons] at ih
          rw [Value.prettyChars, ih.1, prettyMembers_eq fun m hm => ih.2 m hm _]
          simp [Value.written, writtenMembers, Layout.chars, Layout.members, Layout.opening,
            Layout.pretty]
  | natural n => exact (Numeral.magnitude_plain false n).symm
  | negative n => exact congrArg ('-' :: ·) (Numeral.magnitude_plain true (n + 1)).symm
  | _ => rfl

theorem compactItems_eq {vs : List Value}
    (h : ∀ v ∈ vs, v.compactChars = Layout.compact.chars (depth + 1) v.written) :
    compactItems vs = Layout.compact.items depth false (writtenItems vs) := by
  induction vs with
  | nil => rfl
  | cons v vs ih =>
      rw [List.forall_mem_cons] at h
      rw [compactItems, h.1, ih h.2]
      simp [writtenItems, Layout.items, Layout.opening, Layout.compact]

theorem compactMembers_eq {ms : List (String × Value)}
    (h : ∀ m ∈ ms, m.2.compactChars = Layout.compact.chars (depth + 1) m.2.written) :
    compactMembers ms = Layout.compact.members depth false (writtenMembers ms) := by
  induction ms with
  | nil => rfl
  | cons m ms ih =>
      rw [List.forall_mem_cons] at h
      rw [compactMembers, h.1, ih h.2]
      simp [writtenMembers, Layout.members, Layout.opening, Layout.compact]

theorem compactChars_eq {v : Value} (hv : v.Whole) (depth : Nat) :
    v.compactChars = Layout.compact.chars depth v.written := by
  induction hv generalizing depth with
  | bool b => cases b <;> rfl
  | @list vs _ ih =>
      cases vs with
      | nil => rfl
      | cons v vs =>
          simp only [List.forall_mem_cons] at ih
          rw [Value.compactChars, ih.1 (depth + 1), compactItems_eq fun v hv => ih.2 v hv (depth + 1)]
          simp [Value.written, Layout.chars, Layout.items, Layout.opening, Layout.compact]
  | @object ms _ ih =>
      cases ms with
      | nil => rfl
      | cons m ms =>
          simp only [List.forall_mem_cons] at ih
          rw [Value.compactChars, ih.1 (depth + 1),
            compactMembers_eq fun m hm => ih.2 m hm (depth + 1)]
          simp [Value.written, writtenMembers, Layout.chars, Layout.members, Layout.opening,
            Layout.compact]
  | natural n => exact (Numeral.magnitude_plain false n).symm
  | negative n => exact congrArg ('-' :: ·) (Numeral.magnitude_plain true (n + 1)).symm
  | _ => rfl

end

/-- The two texts in which a document goes out. -/
def Value.texts (v : Value) : List String := [v.compact, v.pretty]

/-- Both texts of a document without real numbers are texts of what it says. -/
theorem Value.Whole.mem_texts {v : Value} (hv : v.Whole) {s : String} (hs : s ∈ v.texts) :
    ∃ L : Layout, s = L.text v.written := by
  simp only [texts, List.mem_cons, List.not_mem_nil, or_false] at hs
  rcases hs with rfl | rfl
  · exact ⟨.compact, congrArg String.ofList (compactChars_eq hv 0)⟩
  · exact ⟨.pretty, congrArg String.ofList (prettyChars_eq hv 0)⟩

end ScriptSandbox.Json
