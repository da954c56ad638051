import ScriptSandbox.Machine.Str
import ScriptSandbox.Regex.Program
import ScriptSandbox.Regex.Reader

/-!
# Searching

`step` does what one instruction asks for; `run` repeats it, and goes back to what was kept for
later whenever a state comes to nothing. The first state that reaches the end is the match: the
order in which alternatives are tried is the order in which a pattern prefers them.
-/

namespace ScriptSandbox.Regex

/-- A regular expression, ready to be searched for. -/
structure Matcher where
  source : Str
  flagsText : Str
  flags : Flags
  /-- The names of the groups in order, where they have names. -/
  groups : List (Option String)
  program : Array Instr
  deriving Inhabited

/-- Makes a regular expression from its pattern and its flags. -/
def Matcher.make (source flags : Str) : Except String Matcher :=
  match flags.toString?.bind Flags.read with
  | none => .error "invalid regular expression flags"
  | some f =>
    let chars := if f.unicode then source.codePoints.toArray else source.toUnits.map UInt16.toNat
    match readPattern chars f with
    | .ok (node, groups) =>
      .ok { source, flagsText := flags, flags := f, groups, program := programOf node }
    | .error e => .error e

/-! ## Subjects -/

/-- What is searched: text of ASCII only, whose bytes are its units, or units. -/
inductive Subject where
  | ascii (text : String)
  | units (us : Array UInt16)

namespace Subject

def ofStr (s : Str) : Subject :=
  match s with
  | .plain t n => if t.utf8ByteSize == n then .ascii t else .units s.toUnits
  | .units us => .units us

def length : Subject → Nat
  | .ascii t => t.utf8ByteSize
  | .units us => us.size

def unit? : Subject → Nat → Option UInt16
  | .ascii t, i =>
    if h : (⟨i⟩ : String.Pos.Raw) < t.rawEndPos then some (t.getUTF8Byte ⟨i⟩ h).toUInt16 else none
  | .units us, i => us[i]?

/-- The character that begins at a place, and how many units it takes. -/
def after? (s : Subject) (unicode : Bool) (i : Nat) : Option (Nat × Nat) :=
  match s.unit? i with
  | none => none
  | some u =>
    if unicode && Str.isHigh u then
      match s.unit? (i + 1) with
      | some v => if Str.isLow v then some (Str.joinPair u v, 2) else some (u.toNat, 1)
      | none => some (u.toNat, 1)
    else some (u.toNat, 1)

/-- The character that ends at a place, and how many units it takes. -/
def before? (s : Subject) (unicode : Bool) (i : Nat) : Option (Nat × Nat) :=
  match i with
  | 0 => none
  | j + 1 =>
    match s.unit? j with
    | none => none
    | some v =>
      if unicode && Str.isLow v && j > 0 then
        match s.unit? (j - 1) with
        | some u => if Str.isHigh u then some (Str.joinPair u v, 2) else some (v.toNat, 1)
        | none => some (v.toNat, 1)
      else some (v.toNat, 1)

end Subject

/-! ## Steps -/

/-- A state of a search. -/
structure State where
  pc : Nat := 0
  place : Nat
  /-- Where groups begin and end, as far as they have been found. -/
  slots : Array (Option Nat)
  /-- For each repetition around, the innermost first: how many rounds there were, and where the
  last one began. -/
  rounds : List (Nat × Nat) := []

/-- What becomes of a state. -/
inductive Step where
  | fail
  | found
  | next (s : State)
  | fork (s later : State)
  /-- Needs to know whether there is a match from the first state. -/
  | look (s : State) (negated : Bool) (next : Nat)

def Flags.accepts (f : Flags) (t : Test) (n : Nat) : Bool :=
  match t with
  | .char m => f.same m n
  | .any => f.dotAll || !endsLine n
  | .set s => f.holds s n

/-- Whether a word begins or ends at a place. -/
def isWordEdge (s : Subject) (i : Nat) : Bool :=
  let isWord (c : Option (Nat × Nat)) : Bool := c.any fun (n, _) => isWordChar n
  isWord (s.before? false i) != isWord (s.after? false i)

/-- The place after a text has been passed once more, if it stands there. -/
def repeatText (f : Flags) (s : Subject) (back : Bool) (start : Nat) :
    (count : Nat) → (place : Nat) → Option Nat
  | 0, place => some place
  | k + 1, place =>
    if back then
      match place with
      | 0 => none
      | p + 1 =>
        if sameUnit (start + k) p then repeatText f s back start k p else none
    else
      match repeatText f s back start k place with
      | some p => if sameUnit (start + k) p then some (p + 1) else none
      | none => none
where
  /-- Whether the units at two places are the same. -/
  sameUnit (i j : Nat) : Bool :=
    match s.unit? i, s.unit? j with
    | some a, some b => f.same a.toNat b.toNat
    | _, _ => false

/-- Does what an instruction asks for. -/
def step (r : Matcher) (subject : Subject) (s : State) : Step :=
  let f := r.flags
  let go (s : State) : Step := .next { s with pc := s.pc + 1 }
  let check (b : Bool) : Step := if b then go s else .fail
  match r.program[s.pc]? with
  | none | some .found => .found
  | some (.one t false) =>
    match subject.after? f.unicode s.place with
    | some (n, k) => if f.accepts t n then go { s with place := s.place + k } else .fail
    | none => .fail
  | some (.one t true) =>
    match subject.before? f.unicode s.place with
    | some (n, k) => if f.accepts t n then go { s with place := s.place - k } else .fail
    | none => .fail
  | some .lineStart =>
    check (s.place == 0
      || (f.multiline && (subject.before? false s.place).any fun (n, _) => endsLine n))
  | some .lineEnd =>
    check (s.place == subject.length
      || (f.multiline && (subject.after? false s.place).any fun (n, _) => endsLine n))
  | some (.wordEdge wanted) => check (isWordEdge subject s.place == wanted)
  | some (.fork first second) => .fork { s with pc := first } { s with pc := second }
  | some (.jump target) => .next { s with pc := target }
  | some (.note slot) => go { s with slots := s.slots.setIfInBounds slot (some s.place) }
  | some (.forget first last) =>
    let forgotten := List.range (2 * (last + 1 - first))
    let slots :=
      forgotten.foldl (fun slots i => slots.setIfInBounds (2 * first + i) none) s.slots
    go { s with slots }
  | some (.again group back) =>
    match s.slots[2 * group]?, s.slots[2 * group + 1]? with
    | some (some a), some (some b) =>
      match repeatText f subject back a (b - a) s.place with
      | some p => go { s with place := p }
      | none => .fail
    | _, _ => go s
  | some .beginRounds => go { s with rounds := (0, s.place) :: s.rounds }
  | some (.round least most greedy exit) =>
    match s.rounds with
    | [] => .fail
    | (k, _) :: rest =>
      let more : State := { s with pc := s.pc + 1, rounds := (k, s.place) :: rest }
      let leave : State := { s with pc := exit }
      if k < least then .next more
      else if most == some k then .next leave
      else if greedy then .fork more leave
      else .fork leave more
  | some (.endRound least start) =>
    match s.rounds with
    | [] => .fail
    | (k, p) :: rest =>
      if p == s.place && least ≤ k then .fail
      else .next { s with pc := start, rounds := (k + 1, p) :: rest }
  | some .endRounds => go { s with rounds := s.rounds.tail }
  | some (.look negated next) => .look { s with pc := s.pc + 1, rounds := [] } negated next

/-- Runs the first of some states until it reaches the end or comes to nothing; the others are kept
for later. -/
def run (r : Matcher) (subject : Subject) : (fuel : Nat) → List State → Option State
  | 0, _ => none
  | _, [] => none
  | fuel + 1, s :: later =>
    match step r subject s with
    | .fail => run r subject fuel later
    | .found => some s
    | .next t => run r subject fuel (t :: later)
    | .fork t u => run r subject fuel (t :: u :: later)
    | .look t negated next =>
      match run r subject fuel [t], negated with
      | some found, false =>
        run r subject fuel ({ s with pc := next, slots := found.slots } :: later)
      | none, true => run r subject fuel ({ s with pc := next } :: later)
      | _, _ => run r subject fuel later

def stepLimit : Nat := 1000000000000

/-! ## Matches -/

/-- Where the whole match and the groups begin and end. -/
abbrev Match : Type := Array (Option (Nat × Nat))

def Matcher.matchAt (r : Matcher) (subject : Subject) (start : Nat) : Option Match :=
  let count := r.groups.length + 1
  let s : State := { place := start, slots := Array.replicate (2 * count) none }
  match run r subject stepLimit [s] with
  | none => none
  | some found =>
    let slots := (found.slots.setIfInBounds 0 (some start)).setIfInBounds 1 (some found.place)
    some ((Array.range count).map fun i =>
      match slots[2 * i]?, slots[2 * i + 1]? with
      | some (some a), some (some b) => some (a, b)
      | _, _ => none)

def Matcher.searchFrom (r : Matcher) (subject : Subject) :
    (fuel : Nat) → (start : Nat) → Option Match
  | 0, _ => none
  | fuel + 1, start =>
    match r.matchAt subject start with
    | some m => some m
    | none =>
      match subject.after? r.flags.unicode start with
      | some (_, k) => r.searchFrom subject fuel (start + k)
      | none => none

/-- The first match from a place on; a sticky expression has to match right there. -/
def Matcher.search (r : Matcher) (s : Str) (start : Nat) : Option Match :=
  let subject := Subject.ofStr s
  if start > subject.length then none
  else if r.flags.sticky then r.matchAt subject start
  else r.searchFrom subject (subject.length + 1) start

end ScriptSandbox.Regex
