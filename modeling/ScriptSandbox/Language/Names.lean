import ScriptSandbox.Language.Lexer

/-!
# Names while reading

Which words may be names where, which names a function mentions, and which names the blocks around
declare. A function that is left hands the names that it and the functions inside it mention to
the function around it, which has to keep variables of these names where inner functions reach
them.
-/

namespace ScriptSandbox.Language

open Reading

def reservedWords : List String :=
  ["null", "false", "true", "if", "else", "return", "var", "this", "delete", "void", "typeof",
    "new", "in", "instanceof", "do", "while", "for", "break", "continue", "switch", "case",
    "default", "throw", "try", "catch", "finally", "function", "debugger", "with", "class", "const",
    "enum", "export", "extends", "import", "super"]

def strictWords : List String :=
  ["implements", "interface", "let", "package", "private", "protected", "public", "static", "yield"]

/-- Whether a word is reserved where it stands. One that is written with an escape is no keyword
then, but no name either. -/
def isReserved (f : FunctionState) (isModule : Bool) (w : String) : Bool :=
  let inArrowParams := f.isArrow && !f.inBody
  if reservedWords.contains w then true
  else if strictWords.contains w then
    f.strict || (w == "yield" && (f.isGenerator || (inArrowParams && f.yieldsAround)))
  else
    w == "await" && (isModule || f.isAsync || f.isStaticBlock || (inArrowParams && f.awaitsAround))

def nameAhead? : Reading (Option String) := do
  let s ← get
  match s.token with
  | .word w _ => if isReserved (← current) s.isModule w then return none else return some w
  | _ => return none

/-- Fails because a reserved word stands for a name. -/
def failReserved {α : Type} (w : String) : Reading α :=
  fail ("'" ++ w ++ "' is a reserved identifier")

/-- Fails because there is no name where one is needed; a reserved word that is written with an
escape is told apart. -/
def failNameless {α : Type} (message : String) : Reading α := do
  match (← get).token with
  | .word w true => failReserved w
  | _ => fail message

/-- Records that the function being read mentions a name. -/
def mention (name : String) : Reading Unit :=
  change fun f => if f.used.contains name then f else { f with used := name :: f.used }

def enterFunction (f : FunctionState) : Reading Unit :=
  modify fun s => { s with functions := f :: s.functions }

def addNames (names more : List String) : List String :=
  more.foldl (fun acc x => if acc.contains x then acc else x :: acc) names

def leaveFunction : Reading FunctionState := do
  let s ← get
  match s.functions with
  | [] => return default
  | f :: rest =>
    let rest :=
      match rest with
      | [] => []
      | g :: gs =>
        { g with
          inner := addNames (addNames g.inner f.used) f.inner, hasEval := g.hasEval || f.hasEval }
          :: gs
    set { s with functions := rest }
    return f

/-! ## Declarations -/

def enterBlock : Reading Unit := change fun f => { f with scopes := {} :: f.scopes }

def leaveBlock : Reading Unit := change fun f => { f with scopes := f.scopes.tail }

def declareLexical (name : String) : Reading Unit := do
  if name == "let" then fail "'let' is not a valid lexical identifier"
  let f ← current
  let block := f.scopes.headD {}
  let outermost := f.scopes.length == 1
  if !f.inBody then
    if f.params.contains name || block.lexical.contains name then
      fail "duplicate parameter names not allowed in this context"
  else
    if block.lexical.contains name || block.caught == some name then
      fail "invalid redefinition of lexical identifier"
    if outermost && f.params.contains name then fail "invalid redefinition of parameter name"
    if block.vars.contains name then
      fail (if f.isTop && outermost then "invalid redefinition of global identifier"
        else "invalid redefinition of a variable")
  change fun f =>
    { f with scopes := { block with lexical := name :: block.lexical } :: f.scopes.tail }

def declareVar (name : String) : Reading Unit := do
  let f ← current
  if f.scopes.any (·.lexical.contains name) then
    fail "invalid redefinition of lexical identifier"
  change fun f => { f with scopes := f.scopes.map fun b => { b with vars := name :: b.vars } }

def declare (kind : DeclKind) (name : String) : Reading Unit :=
  match kind with
  | .var => declareVar name
  | .let | .const => declareLexical name

/-- Declares a function in the innermost block: as a `var` at the top of a function or script, as a
lexical name elsewhere. -/
def declareFunction (name : String) : Reading Unit := do
  let f ← current
  if f.scopes.length == 1 && !(← get).isModule then declareVar name else declareLexical name

end ScriptSandbox.Language
