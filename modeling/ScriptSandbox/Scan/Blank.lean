/-!
# Blanking comments

`blankComments` puts a space in the place of each character of a comment and leaves everything
else alone, so that what it yields has the same length, the same lines and the same string
literals as the source. It walks the source once, with one character of lookahead; the marks that
open and close a comment take two characters, and there is a mode for being between them.
-/

namespace ScriptSandbox.Scan

/-- What the next character belongs to. -/
inductive Lexeme where
  | code
  | quoted (quote : Char)
  /-- After a backslash in a string. -/
  | escaped (quote : Char)
  /-- Before the second slash of a line comment's mark. -/
  | lineOpening
  | line
  /-- Before the star of a block comment's opening mark. -/
  | blockOpening
  | block
  /-- Before the slash of a block comment's closing mark. -/
  | blockClosing
  deriving DecidableEq, Repr, Inhabited

/-- Whether a character opens a string. -/
def isQuote (c : Char) : Bool := c == '\'' || c == '"' || c == '`'

/-- Whether a character ends a string that `quote` opened; a line break ends all but templates. -/
def endsQuote (quote c : Char) : Bool := c == quote || (c == '\n' && quote != '`')

/-- A space, or the line break that stands there. -/
def blanked (c : Char) : Char := if c == '\n' then '\n' else ' '

namespace Lexeme

/-- What the character `c` becomes, and what the one after it belongs to. -/
def step (m : Lexeme) (c : Char) (ahead : Option Char) : Char × Lexeme :=
  match m with
  | .code =>
    if c == '/' && ahead == some '/' then (' ', .lineOpening)
    else if c == '/' && ahead == some '*' then (' ', .blockOpening)
    else if isQuote c then (c, .quoted c)
    else (c, .code)
  | .quoted q =>
    if c == '\\' then (c, .escaped q) else if endsQuote q c then (c, .code) else (c, .quoted q)
  | .escaped q => (c, .quoted q)
  | .lineOpening => (' ', .line)
  | .line => if c == '\n' then ('\n', .code) else (' ', .line)
  | .blockOpening => (' ', .block)
  | .block =>
    if c == '*' && ahead == some '/' then (' ', .blockClosing) else (blanked c, .block)
  | .blockClosing => (' ', .code)

end Lexeme

/-- The source from a mode on, with its comments blanked. -/
def blankFrom : Lexeme → List Char → List Char
  | _, [] => []
  | m, c :: cs => (m.step c cs.head?).1 :: blankFrom (m.step c cs.head?).2 cs

/-- The source with its comments blanked. -/
def blankComments (source : List Char) : List Char := blankFrom .code source

end ScriptSandbox.Scan
