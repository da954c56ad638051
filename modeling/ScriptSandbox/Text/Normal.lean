import ScriptSandbox.Text.Parts

/-!
# Normal forms of text

The same letter can be one character or a letter with marks, and the marks can stand in different
orders. `NormalForm.apply` brings a text into one form: it takes every character apart, puts the
marks of each letter into the order of their classes, and puts together again what can be, where the
form wants that.
-/

namespace ScriptSandbox.Text

/-- A form that a text can be brought into. -/
structure NormalForm where
  /-- Whether characters are taken apart that only look or read like their parts. -/
  alike : Bool
  /-- Whether characters are put together again. -/
  composed : Bool

namespace NormalForm

/-- The form in which the same texts are written alike, and as short as can be. -/
def composedForm : NormalForm := ⟨false, true⟩

def ofName? : String → Option NormalForm
  | "NFC" => some composedForm
  | "NFD" => some ⟨false, false⟩
  | "NFKC" => some ⟨true, true⟩
  | "NFKD" => some ⟨true, false⟩
  | _ => none

/-- How often a part can be taken apart again. -/
def depth : Nat := 8

/-- A character taken apart, as far as that goes. -/
def expand (alike : Bool) : (fuel : Nat) → Nat → List Nat
  | 0, n => [n]
  | fuel + 1, n =>
    match Parts.parts? alike n with
    | some parts => parts.flatMap (expand alike fuel)
    | none => [n]

/-- Puts a character before others, a mark after those of lower classes that follow its letter. -/
def placeMark (x : Nat × Nat) : List (Nat × Nat) → List (Nat × Nat)
  | [] => [x]
  | y :: rest => if 0 < y.2 && y.2 < x.2 then y :: placeMark x rest else x :: y :: rest

/-- Characters with their classes, all marks in the order of their classes. -/
def orderMarks (ns : List Nat) : List (Nat × Nat) :=
  (ns.map fun n => (n, Parts.markClass n)).foldr placeMark []

/-- What has been put together so far. -/
structure Composing where
  /-- What is done, the last first. -/
  done : List Nat := []
  /-- The last character that is no mark, if there was one. -/
  letter : Option Nat := none
  /-- The marks after it that did not go into it, the last first. -/
  marks : List Nat := []
  /-- The class of the last of them. -/
  lastClass : Nat := 0

namespace Composing

/-- Everything, the last first. -/
def all (s : Composing) : List Nat := s.marks ++ s.letter.toList ++ s.done

/-- Adds a character with its class. It goes into the letter before it, unless there is another mark
in between that keeps it apart. -/
def add (s : Composing) (x : Nat × Nat) : Composing :=
  let whole := if s.marks.isEmpty || s.lastClass < x.2 then
      s.letter.bind fun a => Parts.whole? a x.1
    else none
  match whole with
  | some n => { s with letter := some n }
  | none =>
    if x.2 == 0 then { done := s.all, letter := some x.1 }
    else { s with marks := x.1 :: s.marks, lastClass := x.2 }

end Composing

/-- The code points of a text, in a form; ASCII is in every form as it is. -/
def apply (f : NormalForm) (ns : List Nat) : List Nat :=
  if ns.all (· < 0x80) then ns
  else
    let xs := orderMarks (ns.flatMap (expand f.alike depth))
    if f.composed then (xs.foldl Composing.add {}).all.reverse else xs.map (·.1)

end NormalForm
end ScriptSandbox.Text
