import ScriptSandbox.Proofs.Scan.Walk

/-!
# Slices at byte offsets

The walk over code keeps its place in characters. A slice of a text is taken at an offset in bytes,
and there is none if the offset lies beyond the end of the text or within a character. Here every
slice of the walk is taken that way: `opensFunctionAt` and `insideFunctionAt` compute offsets and
cut, and say which slice there was not.

The main results are `opensFunctionAt_eq` and `insideFunctionAt_eq`: the walk in characters and the
walk in offsets agree, and of the four slices only the last, the word before a head, can be missing.
-/

namespace ScriptSandbox.Scan

/-! ## Cutting a text -/

/-- The number of bytes of a text. -/
def byteLength (cs : List Char) : Nat := (cs.map Char.utf8Size).sum

@[simp] theorem byteLength_nil : byteLength [] = 0 := rfl

@[simp] theorem byteLength_cons (c : Char) (cs : List Char) :
    byteLength (c :: cs) = c.utf8Size + byteLength cs := by
  simp [byteLength]

@[simp] theorem byteLength_append (a b : List Char) :
    byteLength (a ++ b) = byteLength a + byteLength b := by
  simp [byteLength]

@[simp] theorem byteLength_reverse (a : List Char) : byteLength a.reverse = byteLength a := by
  simp [byteLength, List.map_reverse, List.sum_reverse]

/-- A text cut in two at a byte offset, unless the offset lies beyond its end or within a
character. -/
def cut? : (offset : Nat) → List Char → Option (List Char × List Char)
  | 0, cs => some ([], cs)
  | _ + 1, [] => none
  | n + 1, c :: cs =>
    if c.utf8Size ≤ n + 1 then (cut? (n + 1 - c.utf8Size) cs).map fun p => (c :: p.1, p.2)
    else none

theorem cut?_append (a b : List Char) : cut? (byteLength a) (a ++ b) = some (a, b) := by
  induction a with
  | nil => simp [cut?]
  | cons c a ih =>
      obtain ⟨n, hn⟩ : ∃ n, byteLength (c :: a) = n + 1 :=
        ⟨c.utf8Size - 1 + byteLength a, by have := c.utf8Size_pos; rw [byteLength_cons]; omega⟩
      have hle : c.utf8Size ≤ n + 1 := by rw [← hn, byteLength_cons]; omega
      have hrest : n + 1 - c.utf8Size = byteLength a := by rw [← hn, byteLength_cons]; omega
      rw [hn, List.cons_append, cut?, if_pos hle, hrest, ih]
      rfl

/-- One byte into a character of several, there is no slice. -/
theorem cut?_within {c : Char} (hc : 1 < c.utf8Size) (a b : List Char) :
    cut? (byteLength a + 1) (a ++ c :: b) = none := by
  induction a with
  | nil => simp [cut?, Nat.not_le.mpr hc]
  | cons d a ih =>
      have hle : d.utf8Size ≤ byteLength (d :: a) + 1 := by rw [byteLength_cons]; omega
      have hrest : byteLength (d :: a) + 1 - d.utf8Size = byteLength a + 1 := by
        rw [byteLength_cons]; omega
      rw [List.cons_append, cut?, if_pos hle, hrest, ih]
      rfl

theorem eq_append_of_cut? {n : Nat} {cs a b : List Char} (h : cut? n cs = some (a, b)) :
    cs = a ++ b ∧ byteLength a = n := by
  induction cs generalizing n a with
  | nil =>
      cases n with
      | zero => simp only [cut?, Option.some.injEq, Prod.mk.injEq] at h; simp [← h.1, ← h.2]
      | succ n => simp [cut?] at h
  | cons c cs ih =>
      cases n with
      | zero => simp only [cut?, Option.some.injEq, Prod.mk.injEq] at h; simp [← h.1, ← h.2]
      | succ n =>
          rw [cut?] at h
          split at h
          case isTrue hle =>
            obtain ⟨⟨a', b'⟩, hcut, heq⟩ := Option.map_eq_some_iff.mp h
            obtain ⟨rfl, rfl⟩ := Prod.mk.inj heq
            obtain ⟨rfl, hlen⟩ := ih hcut
            exact ⟨rfl, by rw [byteLength_cons, hlen]; omega⟩
          case isFalse => cases h

def bytes (cs : List Char) : List UInt8 := cs.flatMap String.utf8EncodeChar

theorem length_bytes (cs : List Char) : (bytes cs).length = byteLength cs := by
  simp only [bytes, byteLength, List.length_flatMap, String.length_utf8EncodeChar]

theorem byteLength_eq_utf8ByteSize (cs : List Char) :
    byteLength cs = (String.ofList cs).utf8ByteSize := by
  rw [← length_bytes, ← String.size_toByteArray, String.toByteArray_ofList, List.utf8Encode,
    List.size_toByteArray, bytes]

/-- There is a slice exactly where the string has a character boundary. -/
theorem cut?_isSome_iff (n : Nat) (cs : List Char) :
    (cut? n cs).isSome ↔ String.Pos.Raw.IsValid (String.ofList cs) ⟨n⟩ := by
  rw [String.Pos.Raw.isValid_iff_exists_take_toList, String.toList_ofList]
  constructor
  · intro h
    obtain ⟨⟨a, b⟩, hcut⟩ := Option.isSome_iff_exists.mp h
    obtain ⟨rfl, rfl⟩ := eq_append_of_cut? hcut
    exact ⟨a.length, by rw [List.take_left, ← byteLength_eq_utf8ByteSize]⟩
  · rintro ⟨i, hi⟩
    have hn : n = byteLength (cs.take i) := by rw [byteLength_eq_utf8ByteSize]; exact hi
    rw [hn]
    conv => lhs; arg 1; arg 2; rw [← List.take_append_drop i cs]
    rw [cut?_append]
    rfl

/-! ## Heads of functions -/

/-- A slice that the walk takes. -/
inductive Slice where
  /-- The code before a statement that awaits. -/
  | statement
  /-- The code before a brace. -/
  | brace
  /-- What stands before the parameters of a head. -/
  | parameters
  /-- The word before a head. -/
  | word
  deriving DecidableEq, Repr, Inhabited

def cutAt (slice : Slice) (offset : Nat) (cs : List Char) : Except Slice (List Char × List Char) :=
  match cut? offset cs with
  | some parts => .ok parts
  | none => .error slice

/-- The offset of the parenthesis that matches one closed `depth` levels up, in bytes that are given
backwards: the offset of a byte is the number of bytes still to come. -/
def openingOffset : (depth : Nat) → List UInt8 → Option Nat
  | _, [] => none
  | depth, b :: bs =>
    if b == 41 then openingOffset (depth + 1) bs
    else if b == 40 then if depth ≤ 1 then some bs.length else openingOffset (depth - 1) bs
    else openingOffset depth bs

/-- The offset at which the word at the end of a text is taken to begin: one byte after the last
character that is in no word. -/
def wordStart (cs : List Char) : Nat :=
  match cs.reverse.dropWhile inHeadWord with
  | [] => 0
  | _ :: front => byteLength front + 1

/-- Whether a brace opens a function's body, by the text before it, with slices at byte offsets. -/
def opensFunctionAt (head : List Char) : Except Slice Bool :=
  match (Text.trimEnd head).reverse with
  | '>' :: '=' :: _ => .ok true
  | ')' :: inner =>
    match openingOffset 1 (bytes inner.reverse).reverse with
    | none => .ok false
    | some opening => do
      let (before, _) ← cutAt .parameters opening inner.reverse
      let before := Text.trimEnd before
      let (_, word) ← cutAt .word (wordStart before) before
      return !blockKeywords.contains (String.ofList word)
  | _ => .ok false

/-- No byte of a character of several is a byte of the first 128. -/
theorem le_of_mem_utf8EncodeChar {c : Char} (hc : 1 < c.utf8Size) {b : UInt8}
    (hb : b ∈ String.utf8EncodeChar c) : 128 ≤ b.toNat := by
  have hv : ¬ c.val.toNat ≤ 0x7f := by
    intro hle
    have : c.utf8Size = 1 := Char.utf8Size_eq_one_iff.mpr (UInt32.le_iff_toNat_le.mpr hle)
    omega
  rw [String.utf8EncodeChar] at hb
  simp only [hv, if_false] at hb
  split at hb
  case isTrue =>
    simp only [List.mem_cons, List.not_mem_nil, or_false] at hb
    rcases hb with rfl | rfl <;> rw [UInt8.toNat_ofNat'] <;> omega
  case isFalse =>
    split at hb <;> simp only [List.mem_cons, List.not_mem_nil, or_false] at hb
    case isTrue => rcases hb with rfl | rfl | rfl <;> rw [UInt8.toNat_ofNat'] <;> omega
    case isFalse => rcases hb with rfl | rfl | rfl | rfl <;> rw [UInt8.toNat_ofNat'] <;> omega

/-- The bytes of a character of several are passed over. -/
theorem openingOffset_skip {bs : List UInt8} (hbs : ∀ b ∈ bs, 128 ≤ b.toNat) (depth : Nat)
    (rest : List UInt8) : openingOffset depth (bs ++ rest) = openingOffset depth rest := by
  induction bs with
  | nil => rfl
  | cons b bs ih =>
      have hb : 128 ≤ b.toNat := hbs b (List.mem_cons_self ..)
      have hclosing : (b == 41) = false := by
        rw [beq_eq_false_iff_ne]; rintro rfl; exact absurd hb (by decide)
      have hopening : (b == 40) = false := by
        rw [beq_eq_false_iff_ne]; rintro rfl; exact absurd hb (by decide)
      rw [List.cons_append, openingOffset, hclosing, hopening]
      exact ih fun x hx => hbs x (List.mem_cons_of_mem _ hx)

/-- Characters of one byte are told apart by it. -/
theorem eq_of_toUInt8_eq {c d : Char} (hc : c.utf8Size = 1) (hd : d.utf8Size = 1)
    (h : c.val.toUInt8 = d.val.toUInt8) : c = d := by
  have hc' : c.val.toNat ≤ 127 := UInt32.le_iff_toNat_le.mp (Char.utf8Size_eq_one_iff.mp hc)
  have hd' : d.val.toNat ≤ 127 := UInt32.le_iff_toNat_le.mp (Char.utf8Size_eq_one_iff.mp hd)
  have hmod : c.val.toNat % 256 = d.val.toNat % 256 := by
    simpa only [UInt32.toNat_toUInt8] using congrArg UInt8.toNat h
  exact Char.ext (UInt32.toNat_inj.mp (by omega))

/-- The search in bytes finds the parenthesis that the search in characters finds. -/
theorem openingOffset_eq (depth : Nat) (cs : List Char) :
    openingOffset depth (bytes cs.reverse).reverse =
      (beforeParenthesis depth cs).map byteLength := by
  induction cs generalizing depth with
  | nil => rfl
  | cons c cs ih =>
      have hbytes : (bytes (c :: cs).reverse).reverse =
          (String.utf8EncodeChar c).reverse ++ (bytes cs.reverse).reverse := by
        simp [bytes]
      have hrest : (bytes cs.reverse).reverse.length = byteLength cs := by
        rw [List.length_reverse, length_bytes, byteLength_reverse]
      rw [hbytes]
      by_cases hwide : 1 < c.utf8Size
      · rw [openingOffset_skip fun b hb =>
          le_of_mem_utf8EncodeChar hwide (List.mem_reverse.mp hb)]
        have hclosing : c ≠ ')' := by rintro rfl; exact absurd hwide (by decide)
        have hopening : c ≠ '(' := by rintro rfl; exact absurd hwide (by decide)
        rw [ih, beforeParenthesis] <;> assumption
      · have hone : c.utf8Size = 1 := by have := c.utf8Size_pos; omega
        have hsingle : (String.utf8EncodeChar c).reverse = [c.val.toUInt8] := by
          rw [String.utf8EncodeChar_eq_singleton hone]; rfl
        rw [hsingle, List.singleton_append, openingOffset, hrest, ih, ih, ih]
        by_cases hclosing : c = ')'
        · subst hclosing; rfl
        by_cases hopening : c = '('
        · subst hopening
          have h41 : ('('.val.toUInt8 == 41) = false := rfl
          have h40 : ('('.val.toUInt8 == 40) = true := rfl
          rw [h41, h40, beforeParenthesis]
          by_cases hdepth : depth ≤ 1 <;> simp [hdepth]
        have hne (d : Char) (hd : d.utf8Size = 1) (hcd : c ≠ d) : c.val.toUInt8 ≠ d.val.toUInt8 :=
          fun h => hcd (eq_of_toUInt8_eq hone hd h)
        have h41 : (c.val.toUInt8 == 41) = false := beq_eq_false_iff_ne.mpr (hne ')' rfl hclosing)
        have h40 : (c.val.toUInt8 == 40) = false := beq_eq_false_iff_ne.mpr (hne '(' rfl hopening)
        rw [h41, h40, beforeParenthesis] <;> first | rfl | assumption

/-- Before the last character that is in no word stands what is left without the word and it. -/
theorem wordStart_eq {cs : List Char} {c : Char} {front : List Char}
    (h : cs.reverse.dropWhile inHeadWord = c :: front) :
    wordStart cs = byteLength front.reverse + 1 := by
  rw [wordStart, h, byteLength_reverse]

/-- The word at the end of a text can be cut off unless a character of several bytes stands
before it. -/
theorem cut?_wordStart (cs : List Char) :
    (cut? (wordStart cs) cs).map (·.2) =
      if ((cs.reverse.dropWhile inHeadWord).head?.any fun c => 1 < c.utf8Size) then none
      else some (cs.reverse.takeWhile inHeadWord).reverse := by
  have hsplit : cs = (cs.reverse.dropWhile inHeadWord).reverse ++
      (cs.reverse.takeWhile inHeadWord).reverse := by
    rw [← List.reverse_append, List.takeWhile_append_dropWhile, List.reverse_reverse]
  generalize hword : (cs.reverse.takeWhile inHeadWord).reverse = word at hsplit
  cases hdrop : cs.reverse.dropWhile inHeadWord with
  | nil =>
      rw [hdrop] at hsplit
      rw [wordStart, hdrop]
      simpa [cut?] using hsplit
  | cons c front =>
      rw [hdrop, List.reverse_cons, List.append_assoc, List.singleton_append] at hsplit
      rw [wordStart_eq hdrop, hsplit]
      by_cases hwide : 1 < c.utf8Size
      · rw [cut?_within hwide]
        simp [hwide]
      · have hone : byteLength front.reverse + 1 = byteLength (front.reverse ++ [c]) := by
          have := c.utf8Size_pos
          simp only [byteLength_append, byteLength_cons, byteLength_nil]
          omega
        have hjoin : front.reverse ++ c :: word = (front.reverse ++ [c]) ++ word := by simp
        rw [hone, hjoin, cut?_append]
        simp [hwide]

/-- What the word before a head says, `before` being the text before its parenthesis, backwards. -/
theorem cutAt_word (before : List Char) :
    (do let (_, word) ← cutAt .word (wordStart before.reverse) before.reverse
        return !blockKeywords.contains (String.ofList word)) =
      if ((before.dropWhile inHeadWord).head?.any fun c => 1 < c.utf8Size) then
        Except.error Slice.word
      else .ok (!blockKeywords.contains (String.ofList (before.takeWhile inHeadWord).reverse)) := by
  have hword := cut?_wordStart before.reverse
  rw [List.reverse_reverse] at hword
  rw [cutAt]
  split at hword
  case isTrue hwide =>
    rw [Option.map_eq_none_iff.mp hword, if_pos hwide]
    rfl
  case isFalse hnarrow =>
    obtain ⟨⟨rest, word⟩, hcut, hsnd⟩ := Option.map_eq_some_iff.mp hword
    rw [hcut, if_neg hnarrow, ← hsnd]
    rfl

theorem cut?_of_beforeParenthesis {inner before : List Char}
    (h : beforeParenthesis 1 inner = some before) :
    ∃ rest, cut? (byteLength before) inner.reverse = some (before.reverse, rest) := by
  obtain ⟨passed, rfl, -⟩ := beforeParenthesis_eq_some_iff.mp h
  refine ⟨(passed ++ ['(']).reverse, ?_⟩
  have hsplit : (passed ++ '(' :: before).reverse =
      before.reverse ++ (passed ++ ['(']).reverse := by simp
  rw [hsplit, ← byteLength_reverse, cut?_append]

/-- Of the slices that tell whether a brace opens a function, only the word before the head can be
missing, and it is where the walk in characters finds a fault. -/
theorem opensFunctionAt_eq (head : List Char) :
    opensFunctionAt head = (opensFunction head.reverse).mapError fun _ => .word := by
  have htrim (cs : List Char) : Text.trimEnd cs.reverse = (cs.dropWhile Text.isBlank).reverse := by
    rw [Text.trimEnd, List.reverse_reverse]
  rw [opensFunctionAt, Text.trimEnd, List.reverse_reverse]
  split
  case h_1 hhead => rw [opensFunction, hhead]; rfl
  case h_2 inner hhead =>
    simp only [openingOffset_eq]
    cases hbefore : beforeParenthesis 1 inner with
    | none => simp only [opensFunction, hhead, hbefore]; rfl
    | some before =>
        obtain ⟨rest, hcut⟩ := cut?_of_beforeParenthesis hbefore
        have hparameters : cutAt .parameters (byteLength before) inner.reverse =
            .ok (before.reverse, rest) := by rw [cutAt, hcut]
        rw [Option.map_some]
        simp only [hparameters]
        show (do
          let (_, word) ← cutAt .word (wordStart (Text.trimEnd before.reverse))
            (Text.trimEnd before.reverse)
          return !blockKeywords.contains (String.ofList word)) = _
        rw [htrim, cutAt_word, opensFunction_head hhead hbefore]
        cases ((before.dropWhile Text.isBlank).dropWhile inHeadWord).head? with
        | none => rfl
        | some c => by_cases hwide : 1 < c.utf8Size <;> simp [hwide, Option.filter, Except.mapError]
  case h_3 hnoArrow hnoHead =>
    rw [opensFunction]
    split
    case h_1 harrow => exact absurd harrow (hnoArrow _)
    case h_2 hhead => exact absurd hhead (hnoHead _)
    case h_3 => rfl

/-! ## The walk -/

/-- Where a walk in offsets stands. -/
structure Reading where
  quote : QuoteState := .outside
  /-- Whether each open brace, the innermost first, opened a function. -/
  blocks : List Bool := []
  /-- The offset of the next character. -/
  offset : Nat := 0

def Reading.step (code : List Char) (r : Reading) (c : Char) : Except Slice Reading := do
  let offset := r.offset + c.utf8Size
  match r.quote with
  | .inside q =>
    let quote : QuoteState :=
      if c == '\\' then .escaped q else if endsQuote q c then .outside else .inside q
    return { r with quote, offset }
  | .escaped q => return { r with quote := .inside q, offset }
  | .outside =>
    if isQuote c then return { r with quote := .inside c, offset }
    else if c == '\x7b' then
      let (head, _) ← cutAt .brace r.offset code
      return { r with blocks := (← opensFunctionAt head) :: r.blocks, offset }
    else if c == '\x7d' then return { r with blocks := r.blocks.tail, offset }
    else return { r with offset }

/-- Whether the place at an offset lies inside a function, with slices at byte offsets. -/
def insideFunctionAt (code : List Char) (offset : Nat) : Except Slice Bool := do
  let (before, _) ← cutAt .statement offset code
  let r ← before.foldlM (Reading.step code) {}
  return r.blocks.contains true

/-- The walk in offsets stands where the walk in characters does. -/
def Reading.of (n : Nesting) : Reading := ⟨n.quote, n.blocks, byteLength n.passed⟩

theorem cutAt_append (slice : Slice) (a b : List Char) :
    cutAt slice (byteLength a) (a ++ b) = .ok (a, b) := by
  rw [cutAt, cut?_append]

theorem Reading.step_of {code rest : List Char} {n : Nesting} {c : Char}
    (hcode : code = n.passed.reverse ++ c :: rest) :
    Reading.step code (.of n) c = ((n.step c).map Reading.of).mapError fun _ => .word := by
  obtain ⟨quote, blocks, passed⟩ := n
  have hoffset : byteLength (c :: passed) = byteLength passed + c.utf8Size := by
    rw [byteLength_cons, Nat.add_comm]
  rw [Reading.step, Nesting.step]
  cases quote with
  | inside q => simp only [Reading.of, ← hoffset]; rfl
  | escaped q => simp only [Reading.of, ← hoffset]; rfl
  | outside =>
      simp only [Reading.of]
      by_cases hquote : isQuote c
      · simp only [hquote, if_true, ← hoffset]; rfl
      by_cases hopen : c == '\x7b'
      · have hcut : cutAt .brace (byteLength passed) code = .ok (passed.reverse, c :: rest) := by
          rw [hcode, ← byteLength_reverse, cutAt_append]
        have hhead : opensFunctionAt passed.reverse =
            (opensFunction passed).mapError fun _ => .word := by
          rw [opensFunctionAt_eq, List.reverse_reverse]
        simp only [hquote, hopen, if_true, Bool.false_eq_true, if_false, hcut, ← hoffset]
        show (opensFunctionAt passed.reverse >>= fun b =>
          pure (⟨.outside, b :: blocks, byteLength (c :: passed)⟩ : Reading)) = _
        rw [hhead]
        cases opensFunction passed <;> rfl
      by_cases hclose : c == '\x7d'
      · simp only [hquote, hopen, hclose, if_true, ← hoffset]; rfl
      · simp only [hquote, hopen, hclose, ← hoffset]; rfl

/-- A run of steps in offsets is the run of steps in characters. -/
theorem Reading.foldlM_of {code todo rest : List Char} {n : Nesting}
    (hcode : code = n.passed.reverse ++ (todo ++ rest)) :
    todo.foldlM (Reading.step code) (.of n) =
      ((todo.foldlM Nesting.step n).map Reading.of).mapError fun _ => .word := by
  induction todo generalizing n with
  | nil => rfl
  | cons c todo ih =>
      rw [List.foldlM_cons, List.foldlM_cons, Reading.step_of hcode]
      cases hstep : n.step c with
      | error e => rfl
      | ok n' => exact ih (by rw [Nesting.passed_of_step hstep, hcode]; simp)

/-- Of all slices that tell whether a place lies inside a function, only the word before a head can
be missing. -/
theorem insideFunctionAt_eq (code : List Char) (place : Nat) :
    insideFunctionAt code (byteLength (code.take place)) =
      (insideFunction (code.take place)).mapError fun _ => .word := by
  have hcut : cutAt .statement (byteLength (code.take place)) code =
      .ok (code.take place, code.drop place) := by
    simpa only [List.take_append_drop] using
      cutAt_append .statement (code.take place) (code.drop place)
  have hcode : code = ({} : Nesting).passed.reverse ++ (code.take place ++ code.drop place) :=
    (List.take_append_drop place code).symm
  have hwalk : (code.take place).foldlM (Reading.step code) (.of {}) =
      (((code.take place).foldlM Nesting.step {}).map Reading.of).mapError fun _ => .word :=
    Reading.foldlM_of hcode
  rw [insideFunctionAt, hcut, insideFunction]
  show ((code.take place).foldlM (Reading.step code) (.of {}) >>= fun r =>
    pure (r.blocks.contains true)) = _
  rw [hwalk]
  cases (code.take place).foldlM Nesting.step {} <;> rfl

end ScriptSandbox.Scan
