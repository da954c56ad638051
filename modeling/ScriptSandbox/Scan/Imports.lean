import ScriptSandbox.Scan.Blank
import ScriptSandbox.Scan.Pattern

/-!
# Specifiers in a source

`scanImports` lists the module specifiers that a source seems to name: in static imports, in calls
of `import` with a literal, and in exports from another module. It knows no grammar. What it does
not recognise it passes over, and a template with a substitution names nothing.
-/

namespace ScriptSandbox.Scan

open Pattern

/-- A character of a name. -/
def inName (c : Char) : Bool := Text.isWord c || c == '$'

def name : Pattern := some1 inName

/-- A text in quotes, and the spot after it. -/
def quoted? (s : Spot) : Option (List Char × Spot) :=
  match s.rest with
  | q :: cs =>
    let inside (c : Char) : Bool := c != q && (q == '`' || c != '\n')
    if isQuote q then
      match cs.dropWhile inside with
      | c :: after => if c == q then some (cs.takeWhile inside, ⟨some q, after⟩) else none
      | [] => none
    else none
  | [] => none

/-- What ends at a spot that holds a text in quotes. -/
def thenQuoted (p : Pattern) (s : Spot) : Option (List Char × Spot) := (p s).findSome? quoted?

/-- A list of names in braces. -/
def braced : Pattern :=
  all [one (· == '\x7b'), many fun c => c != '\x7b' && c != '\x7d', one (· == '\x7d')]

/-- What an import statement binds. -/
def bindings : Pattern :=
  seq (opt (all [name, blanks, opt (word ","), blanks]))
    (opt (alt (all [word "*", blanks, word "as", blanks1, name]) braced))

/-- An import statement up to its specifier. -/
def importHead : Pattern :=
  all [boundary, word "import", boundary, blanks, opt (all [bindings, blanks, word "from", blanks])]

/-- A call of `import` with a literal. -/
def dynamicImport? (s : Spot) : Option (List Char × Spot) := do
  let (text, s) ← thenQuoted
    (all [boundary, word "import", blanks, word "(", blanks]) s
  let s ← (all [blanks, word ")"] s).head?
  some (text, s)

/-- An export of another module's names up to its specifier. -/
def exportHead : Pattern :=
  all [boundary, word "export", blanks,
    alt (all [word "*", blanks, opt (all [word "as", blanks1, name, blanks])])
      (all [opt (all [word "type", blanks]), braced, blanks]),
    word "from", blanks]

/-- Whether a text holds the mark of a substitution. -/
def hasSubstitution : List Char → Bool
  | '$' :: '\x7b' :: _ => true
  | _ :: cs => hasSubstitution cs
  | [] => false

/-- The specifier that a quoted text is, unless it is blank or has a substitution. -/
def specifierOf (quoted : List Char) : Option String :=
  let text := Text.trim quoted
  if text.isEmpty || hasSubstitution text then none else some (String.ofList text)

/-- Keeps the first of equal elements. -/
def firstSeen (found : List String) : List String :=
  found.foldl (fun seen s => if seen.contains s then seen else seen ++ [s]) []

/-- The specifiers that a source names, without repetition, in the order of their first place. -/
def scanImports (source : String) : List String :=
  let code := blankComments source.toList
  let found := [thenQuoted importHead, dynamicImport?, thenQuoted exportHead].flatMap
    fun find? => findAll find? none 0 0 code
  let inOrder := found.mergeSort fun a b => a.1 ≤ b.1
  firstSeen (inOrder.filterMap fun (_, text) => specifierOf text)

end ScriptSandbox.Scan
