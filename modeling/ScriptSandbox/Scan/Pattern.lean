import ScriptSandbox.Text.Class

/-!
# Patterns over a text

A `Spot` is a place in a text: the character before it and what follows. A pattern takes a spot to
the spots at which a match may end, the preferred one first, so that composing patterns and taking
the first result is the leftmost-first rule of text searches.

`blanks` takes every blank there is and offers no shorter choice: no pattern of this library puts
something after it that could itself begin with a blank, so a shorter choice would come to nothing.
-/

namespace ScriptSandbox.Scan

/-- A place in a text. -/
structure Spot where
  before : Option Char
  rest : List Char
  deriving DecidableEq, Repr, Inhabited

/-- The place before the first character. -/
def Spot.start (text : List Char) : Spot := ⟨none, text⟩

/-- The place one character on. -/
def Spot.next? (s : Spot) : Option Spot :=
  match s.rest with
  | [] => none
  | c :: cs => some ⟨some c, cs⟩

/-- Where a match may end, from a spot, the preferred end first. -/
def Pattern : Type := Spot → List Spot

namespace Pattern

/-- One character of a class. -/
def one (p : Char → Bool) : Pattern := fun s =>
  match s.rest with
  | c :: cs => if p c then [⟨some c, cs⟩] else []
  | [] => []

/-- One pattern after another. -/
def seq (p q : Pattern) : Pattern := fun s => (p s).flatMap q

/-- The first pattern, or else the second. -/
def alt (p q : Pattern) : Pattern := fun s => p s ++ q s

/-- The pattern, or else nothing. -/
def opt (p : Pattern) : Pattern := fun s => p s ++ [s]

/-- Patterns one after another. -/
def all (ps : List Pattern) : Pattern := ps.foldr seq fun s => [s]

/-- A fixed text. -/
def word (w : String) : Pattern := all (w.toList.map fun c => one (· == c))

/-- The longest run of a class that begins at a spot. -/
def run (p : Char → Bool) (s : Spot) : Spot :=
  let rec go (before : Option Char) : List Char → Spot
    | [] => ⟨before, []⟩
    | c :: cs => if p c then go (some c) cs else ⟨before, c :: cs⟩
  go s.before s.rest

/-- All characters of a class that follow. -/
def many (p : Char → Bool) : Pattern := fun s => [run p s]

/-- All characters of a class that follow, at least one. -/
def many1 (p : Char → Bool) : Pattern := seq (one p) (many p)

/-- Characters of a class, at least one, with the longest choice first. -/
def some1 (p : Char → Bool) : Pattern := fun s =>
  let rec go (found : List Spot) : List Char → List Spot
    | [] => found
    | c :: cs => if p c then go (⟨some c, cs⟩ :: found) cs else found
  go [] s.rest

/-- Blanks, possibly none. -/
def blanks : Pattern := many Text.isBlank

def blanks1 : Pattern := many1 Text.isBlank

/-- Whether a word begins or ends at a spot. -/
def atBoundary (s : Spot) : Bool :=
  (s.before.any Text.isWord) != (s.rest.head?.any Text.isWord)

/-- The begin or end of a word. -/
def boundary : Pattern := fun s => if atBoundary s then [s] else []

def lineStart : Pattern := fun s =>
  match s.before with
  | none => [s]
  | some c => if c == '\n' then [s] else []

end Pattern

/-! ## Searching -/

/-- Looks for the matches of a recogniser from left to right, each after the end of the one before
it; a match is recorded with its offset. `skip` characters belong to the match found last. A match
that is empty would stand still and is not looked for again at its place. -/
def findAll {α : Type} (find? : Spot → Option (α × Spot)) :
    (before : Option Char) → (offset skip : Nat) → List Char → List (Nat × α)
  | before, offset, skip, text =>
    let here : Option (α × Spot) := if skip == 0 then find? ⟨before, text⟩ else none
    let skip : Nat :=
      match here with
      | some (_, s) => text.length - s.rest.length
      | none => skip
    let later : List (Nat × α) :=
      match text with
      | [] => []
      | c :: cs => findAll find? (some c) (offset + 1) (skip - 1) cs
    match here with
    | some (a, _) => (offset, a) :: later
    | none => later

def matchesSomewhere (p : Pattern) : (before : Option Char) → List Char → Bool
  | before, text =>
    !(p ⟨before, text⟩).isEmpty
      || (match text with
        | [] => false
        | c :: cs => matchesSomewhere p (some c) cs)

end ScriptSandbox.Scan
