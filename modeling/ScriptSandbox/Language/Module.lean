import ScriptSandbox.Language.Parser

/-!
# Whole sources

A script is a list of statements. A module may also import and export; what it requests, takes and
gives is gathered while it is read, and its exports are checked against what it declares when its
end has been reached.
-/

namespace ScriptSandbox.Language

open Reading

/-- What a module requests, takes and gives, so far. -/
structure ModuleHeader where
  requests : List String := []
  imports : List ImportEntry := []
  exports : List ExportEntry := []

namespace ModuleHeader

/-- The place of a requested module; it is added if it is new. -/
def request (h : ModuleHeader) (name : String) : Nat × ModuleHeader :=
  match h.requests.idxOf? name with
  | some i => (i, h)
  | none => (h.requests.length, { h with requests := h.requests ++ [name] })

def exportedName? : ExportEntry → Option String
  | .own x _ | .from _ x _ => some x
  | .all _ => none

end ModuleHeader

/-- Adds an export; no name may be exported twice. -/
def addExport (h : ModuleHeader) (e : ExportEntry) : Reading ModuleHeader := do
  match ModuleHeader.exportedName? e with
  | some x =>
    if h.exports.any fun e' => ModuleHeader.exportedName? e' == some x then
      fail ("duplicate exported name '" ++ x ++ "'")
  | none => pure ()
  return { h with exports := h.exports ++ [e] }

def readModuleName : Reading String := do
  match (← get).token with
  | .string s =>
    advance
    return s.toLossy
  | _ => fail "string expected"

/-- `from` and the name of a module. -/
def readFrom : Reading String := do
  if !(← takeWord "from") then fail "from clause expected"
  readModuleName

/-- A name of an import or export, which may be a keyword or a string. -/
def readExternalName : Reading String := do
  match (← get).token with
  | .word w _ =>
    advance
    return w
  | .string s =>
    advance
    return s.toLossy
  | _ => fail "identifier expected"

def readImportBinding : Reading String := do
  match ← nameAhead? with
  | some x =>
    if x == "eval" || x == "arguments" then fail "invalid import binding"
    declareLexical x
    advance
    return x
  | none => fail "invalid import binding"

/-- The names in braces that an import takes: their names there and here. -/
def readNamedImports : Reading (List (String × String)) := do
  repeatRead (fun acc => do
    if ← takeSign "\x7d" then return (acc, false)
    let s ← get
    let isName ← nameAhead?
    let there ←
      match s.token with
      | .word w _ => pure w
      | .string v => pure v.toLossy
      | _ => fail "identifier expected"
    let (after, _) ← tokenAfter
    let here ←
      match after with
      | .word "as" false => do
        advance
        advance
        readImportBinding
      | _ =>
        if isName.isNone then fail "invalid import binding"
        readImportBinding
    if ← takeSign "\x7d" then return ((there, here) :: acc, false)
    expectSign ","
    return ((there, here) :: acc, true)) (← bound) []

/-- An import statement, which is ahead. -/
def readImport (h : ModuleHeader) : Reading ModuleHeader := do
  advance
  match (← get).token with
  | .string _ =>
    let name ← readModuleName
    expectSemicolon
    return (h.request name).2
  | _ =>
    let first ←
      match (← get).token with
      | .word .. => do
        let x ← readImportBinding
        pure (some x)
      | _ => pure none
    let more ← if first.isNone then pure true else takeSign ","
    let named ←
      if !more then pure []
      else if ← takeSign "*" then do
        if !(← takeWord "as") then fail "expecting 'as'"
        let x ← readImportBinding
        pure [("*", x)]
      else do
        expectSign "\x7b"
        readNamedImports
    let name ← readFrom
    expectSemicolon
    let (i, h) := h.request name
    let all := (match first with | some x => [("default", x)] | none => []) ++ named
    return { h with imports := h.imports ++ all.map fun (there, here) => ⟨i, there, here⟩ }

mutual

def patternNames : (fuel : Nat) → Pattern → List String
  | 0, _ => []
  | _ + 1, .name x _ => [x]
  | _ + 1, .member _ => []
  | fuel + 1, .array items rest =>
    items.flatMap (fun i =>
      match i with
      | .hole => []
      | .one p _ => patternNames fuel p) ++ restNames fuel rest
  | fuel + 1, .object entries rest =>
    entries.flatMap (fun e =>
      match e with
      | .entry _ p _ _ => patternNames fuel p) ++ restNames fuel rest

def restNames : (fuel : Nat) → Option Pattern → List String
  | _, none => []
  | fuel, some p => match fuel with
    | 0 => []
    | fuel + 1 => patternNames fuel p

end

def patternDepth : Nat := 4000

/-- The names in braces that an export gives: their names here and for others. -/
def readNamedExports : Reading (List (String × String)) := do
  repeatRead (fun acc => do
    if ← takeSign "\x7d" then return (acc, false)
    let here ← readExternalName
    let there ← if ← takeWord "as" then readExternalName else pure here
    if ← takeSign "\x7d" then return ((here, there) :: acc, false)
    expectSign ","
    return ((here, there) :: acc, true)) (← bound) []

def readDefaultExport (r : Rules) (h : ModuleHeader) : Reading (ModuleHeader × Stmt) := do
  let s ← get
  let pos ← position
  let isAsyncFunction ←
    if ← isWord "async" then do
      let (t, broken) ← tokenAfter
      pure (!broken && (match t with | .word "function" false => true | _ => false))
    else pure false
  if isAsyncFunction || (← isWord "function") then
    let f ← readFunctionWord r isAsyncFunction false s.start pos true
    let .mk name kind isAsync isGenerator strict params body inner hasEval usesArguments source
      pos := f
    if name.isEmpty then
      let h ← addExport h (.own "default" "*default*")
      let f : Function :=
        .mk "*default*" kind isAsync isGenerator strict params body inner hasEval usesArguments
          source pos
      return (h, .function f)
    else
      let h ← addExport h (.own "default" name)
      return (h, .function f)
  else if ← isWord "class" then
    let c ← readClass r false true
    let .mk name _ _ _ _ _ := c
    match name with
    | some x =>
      let h ← addExport h (.own "default" x)
      return (h, .class c)
    | none =>
      let h ← addExport h (.own "default" "*default*")
      return (h, .exportDefault (.class c))
  else
    let e ← r.assign true
    expectSemicolon
    let h ← addExport h (.own "default" "*default*")
    return (h, .exportDefault e)

/-- An export statement, which is ahead. -/
def readExport (r : Rules) (h : ModuleHeader) : Reading (ModuleHeader × Option Stmt) := do
  advance
  let s ← get
  let addAll (h : ModuleHeader) (xs : List String) : Reading ModuleHeader :=
    xs.foldlM (fun h x => addExport h (.own x x)) h
  match s.token with
  | .sign "\x7b" =>
    advance
    let names ← readNamedExports
    if ← isWord "from" then
      let name ← readFrom
      expectSemicolon
      let (i, h) := h.request name
      let h ← names.foldlM (fun h (here, there) => addExport h (.from i there here)) h
      return (h, none)
    else
      expectSemicolon
      let h ← names.foldlM (fun h (here, there) => do
        mention here
        addExport h (.own there here)) h
      return (h, none)
  | .sign "*" =>
    advance
    let renamed ← if ← takeWord "as" then some <$> readExternalName else pure none
    let name ← readFrom
    expectSemicolon
    let (i, h) := h.request name
    let h ← addExport h (match renamed with | some x => .from i x "*" | none => .all i)
    return (h, none)
  | .word "default" false =>
    advance
    let (h, stmt) ← readDefaultExport r h
    return (h, some stmt)
  | .word w _ =>
    let isDecl ← do
      let f ← current
      let isLet ← letAhead f
      let isAsync ←
        if w == "async" then do
          let (t, broken) ← tokenAfter
          pure (!broken && (match t with | .word "function" false => true | _ => false))
        else pure false
      pure (isLet || isAsync || ["var", "const", "function", "class"].contains w)
    if !isDecl then fail "invalid export syntax"
    let stmt ← r.statement .list
    match stmt with
    | .declare _ ds =>
      let names := ds.flatMap fun d => match d with | .mk p _ _ => patternNames patternDepth p
      return (← addAll h names, some stmt)
    | .function (.mk name ..) => return (← addAll h [name], some stmt)
    | .class (.mk (some name) ..) => return (← addAll h [name], some stmt)
    | _ => fail "invalid export syntax"
  | _ => fail "invalid export syntax"

/-- An export of a name that the module itself imports becomes an export of the other module's. -/
def settleExport (h : ModuleHeader) (e : ExportEntry) : ExportEntry :=
  match e with
  | .own x name =>
    match h.imports.find? (·.name == name) with
    | some i => .from i.request x i.imported
    | none => e
  | e => e

/-- The items of a module, up to the end of its source. -/
def readModuleItems (r : Rules) : (fuel : Nat) → ModuleHeader → List Stmt →
    Reading (ModuleHeader × List Stmt)
  | 0, _, _ => tooDeep
  | fuel + 1, h, acc => do
    let s ← get
    match s.token with
    | .eof => return (h, acc.reverse)
    | .word "export" false =>
      let (h, stmt) ← readExport r h
      readModuleItems r fuel h (match stmt with | some x => x :: acc | none => acc)
    | .word "import" false =>
      let (t, _) ← tokenAfter
      if t.isSign "(" || t.isSign "." then
        let x ← r.statement .list
        readModuleItems r fuel h (x :: acc)
      else
        let h ← readImport h
        readModuleItems r fuel h acc
    | _ =>
      let x ← r.statement .list
      readModuleItems r fuel h (x :: acc)

/-- The statements of a script, up to the end of its source. -/
def readScriptItems (r : Rules) : (fuel : Nat) → List Stmt → Reading (List Stmt)
  | 0, _ => tooDeep
  | fuel + 1, acc => do
    match (← get).token with
    | .eof => return acc.reverse
    | _ =>
      let x ← r.statement .list
      readScriptItems r fuel (x :: acc)

def nestingLimit : Nat := 700

/-- The state in which the reading of a source begins. A first line that begins with `#!` is passed
over. -/
def startState (source : String) (isModule strict : Bool) (eval : Option FunctionState) :
    ReaderState :=
  let chars := source.toList.toArray
  let start : Nat :=
    if chars.getD 0 ' ' == '#' && chars.getD 1 ' ' == '!' then
      (chars.findIdx? isLineEnd).getD chars.size
    else 0
  let outer := eval.getD { strict := false, superMember := false, newTarget := false }
  { source := chars
    next := start
    isModule
    functions :=
      [{ strict, isTop := true, returns := false, superMember := outer.superMember,
         newTarget := outer.newTarget }] }

def topFunction (s : ReaderState) (f : FunctionState) (isAsync : Bool) (body : List Stmt) :
    Function :=
  .mk (if s.isModule then "" else "<eval>") .plain isAsync false f.strict [] body f.inner f.hasEval
    false "" ⟨1, 1⟩

/-- Reads a script; code that does not start out strict may make itself so. -/
def readScript (strict : Bool) : Reading Program := do
  advance
  if !strict && (← strictDirectiveAhead) then change fun f => { f with strict := true }
  let s ← get
  let body ← readScriptItems (rules nestingLimit) (s.source.size + 2) []
  let f ← leaveFunction
  return { body := topFunction (← get) f false body, isModule := false }

def readModule : Reading Program := do
  advance
  let s ← get
  let (h, body) ← readModuleItems (rules nestingLimit) (s.source.size + 2) {} []
  let f ← current
  let top := f.scopes.headD {}
  let declared (x : String) : Bool :=
    top.lexical.contains x || top.vars.contains x || x == "*default*"
  for e in h.exports do
    match e with
    | .own _ name =>
      if !declared name then failUnplaced ("exported variable '" ++ name ++ "' does not exist")
    | _ => pure ()
  let f ← leaveFunction
  let awaits := (← get).awaits
  return {
    body := topFunction (← get) f true body
    isModule := true
    requests := h.requests
    imports := h.imports
    exports := h.exports.map (settleExport h)
    awaits }

def readAsScript (source : String) (strict : Bool) : Except SourceFault Program :=
  match readScript strict (startState source false strict none) with
  | .ok p _ => .ok p
  | .error e _ => .error e

def readAsModule (source : String) : Except SourceFault Program :=
  match readModule (startState source true true none) with
  | .ok p _ => .ok p
  | .error e _ => .error e

end ScriptSandbox.Language
