import ScriptSandbox.Scan.Imports

/-!
# Script or module

`hasModuleSyntax` decides whether a source has to run as a module: it has a line that begins with
a static `import` or `export`, or names `import.meta`, or awaits something in a statement outside
every function. Where functions begin is guessed from what stands before each brace.

What stands before a parenthesised head is compared with the keywords of plain blocks as a slice
of bytes that begins one byte after the last character that is in no word. If that character has
more than one byte, the slice would begin within it; this is the fault `SplitCharacter`.
-/

namespace ScriptSandbox.Scan

open Pattern

/-- A slice would have begun inside a character. -/
structure SplitCharacter where
  character : Char
  deriving DecidableEq, Repr, Inhabited

/-! ## Functions -/

/-- Keywords whose parenthesised head opens a plain block. -/
def blockKeywords : List String := ["if", "for", "while", "switch", "catch", "with", "await"]

/-- The text before the parenthesis that matches one closed `depth` levels up; the text is given
and returned backwards. -/
def beforeParenthesis : (depth : Nat) → List Char → Option (List Char)
  | _, [] => none
  | depth, ')' :: cs => beforeParenthesis (depth + 1) cs
  | depth, '(' :: cs => if depth ≤ 1 then some cs else beforeParenthesis (depth - 1) cs
  | depth, _ :: cs => beforeParenthesis depth cs

/-- A character of the word before a head. -/
def inHeadWord (c : Char) : Bool := Text.isAlphanumeric c || c == '_' || c == '$'

/-- Whether a brace opens a function's body, by the text before it, given backwards. -/
def opensFunction (head : List Char) : Except SplitCharacter Bool :=
  match head.dropWhile Text.isBlank with
  | '>' :: '=' :: _ => .ok true
  | ')' :: inner =>
    match beforeParenthesis 1 inner with
    | none => .ok false
    | some before =>
      let before := before.dropWhile Text.isBlank
      let named : Except SplitCharacter Bool :=
        .ok (!blockKeywords.contains (String.ofList (before.takeWhile inHeadWord).reverse))
      match (before.dropWhile inHeadWord).head? with
      | some c => if c.utf8Size > 1 then .error ⟨c⟩ else named
      | none => named
  | _ => .ok false

/-- Where a walk over code stands with respect to strings. -/
inductive QuoteState where
  | outside
  | inside (quote : Char)
  | escaped (quote : Char)
  deriving DecidableEq, Repr, Inhabited

/-- What a walk over code has met so far. -/
structure Nesting where
  quote : QuoteState := .outside
  /-- Whether each open brace, the innermost first, opened a function. -/
  blocks : List Bool := []
  /-- The code passed, backwards. -/
  passed : List Char := []

/-- Passes one character. -/
def Nesting.step (n : Nesting) (c : Char) : Except SplitCharacter Nesting :=
  let passed := c :: n.passed
  match n.quote with
  | .inside q =>
    let quote : QuoteState :=
      if c == '\\' then .escaped q else if endsQuote q c then .outside else .inside q
    .ok { n with quote, passed }
  | .escaped q => .ok { n with quote := .inside q, passed }
  | .outside =>
    if isQuote c then .ok { n with quote := .inside c, passed }
    else if c == '\x7b' then
      match opensFunction n.passed with
      | .ok b => .ok { n with blocks := b :: n.blocks, passed }
      | .error e => .error e
    else if c == '\x7d' then .ok { n with blocks := n.blocks.tail, passed }
    else .ok { n with passed }

/-- Whether the place after some code lies inside a function. -/
def insideFunction (code : List Char) : Except SplitCharacter Bool :=
  (code.foldlM Nesting.step {}).map fun n => n.blocks.contains true

/-! ## Module syntax -/

/-- Blanks within a line. -/
def indent : Pattern := many fun c => c == ' ' || c == '\t'

/-- What may follow `import` in a static import. -/
def afterImport (c : Char) : Bool := inName c || "*\x7b\"'`".toList.contains c

/-- Syntax of modules only. -/
def moduleOnly : Pattern :=
  alt
    (all [lineStart, indent,
      alt (all [word "import", boundary, blanks, one afterImport]) (all [word "export", boundary])])
    (all [boundary, word "import", blanks, word ".", blanks, word "meta", boundary])

/-- What is declared, from the blanks after the keyword to the equals sign. If nothing but blanks
stands before the sign, the last of them counts as what is declared; it has to be one of at least
two, and no line break. -/
def declared : Pattern := fun s =>
  let core := run Text.isBlank s
  let stop := run (fun c => c != '=' && c != '\n') core
  let blankCount := s.rest.length - core.rest.length
  let named := core.rest.length != stop.rest.length
  if blankCount ≥ 1 && (named || (blankCount ≥ 2 && core.before != some '\n')) then
    one (· == '=') stop
  else []

/-- A statement that begins with `await`, or a declaration of what is awaited. -/
def awaitStatement : Pattern :=
  all [lineStart, indent,
    opt (all [alt (word "const") (alt (word "let") (word "var")), declared, blanks]),
    word "await", boundary]

/-- Whether one of some places in the code lies outside every function; the places are tried in
order, and the first that does settles it. -/
def anyOutside (code : List Char) : List Nat → Except SplitCharacter Bool
  | [] => .ok false
  | place :: places =>
    match insideFunction (code.take place) with
    | .error e => .error e
    | .ok false => .ok true
    | .ok true => anyOutside code places

/-- Whether a source has to run as a module. -/
def hasModuleSyntax (source : String) : Except SplitCharacter Bool :=
  let code := blankComments source.toList
  if matchesSomewhere moduleOnly none code then .ok true
  else
    let found := findAll (fun s => (awaitStatement s).head?.map fun e => ((), e)) none 0 0 code
    anyOutside code (found.map (·.1))

end ScriptSandbox.Scan
