import ScriptSandbox.Language.Names

/-!
# Reading programs

The grammar of the guest language, by recursive descent. The productions that lead back to
themselves are gathered in `Rules`; each production takes the rules for what is nested in it, and
`rules n` ties them together for sources nested up to `n` levels. A source nested more deeply is
refused as too deep.

Whether a parenthesis opens the parameters of an arrow function, and whether a bracket or a brace
opens a pattern, is settled by looking for the token after the one that closes it.
-/

namespace ScriptSandbox.Language

open Reading

/-- Which declarations may stand where a statement is read. -/
inductive Place where
  /-- Any declaration. -/
  | list
  /-- None. -/
  | single
  deriving BEq

/-- Whether an operand may be raised to a power. -/
inductive Powers where
  | allowed
  /-- The operand has an operator in front of it, so that a power would be ambiguous. -/
  | ambiguous
  /-- What follows the operand is left alone. -/
  | ignored
  deriving BEq

/-- The productions that lead back to themselves. -/
structure Rules where
  /-- An expression without a comma; the flag tells whether it may hold `in`. -/
  assign : Bool → Reading Expr
  unary : Powers → Reading Expr
  /-- An expression with its members and, if wanted, its calls. -/
  postfix_ : Bool → Reading Expr
  statement : Place → Reading Stmt
  /-- A pattern; with a kind, it declares its names. -/
  pattern : Option DeclKind → Reading Pattern

/-- Rules for sources that are nested too deeply. -/
def Rules.exhausted : Rules :=
  ⟨fun _ => tooDeep, fun _ => tooDeep, fun _ => tooDeep, fun _ => tooDeep, fun _ => tooDeep⟩

/-! ## Looking for the closing token -/

def Token.isSign (t : Token) (w : String) : Bool :=
  match t with
  | .sign v => v == w
  | _ => false

/-- Whether a slash after a token begins a regular expression. -/
def regexAfter : Token → Bool
  | .number _ | .bigint _ | .string _ | .regex .. | .hidden _ => false
  | .template .. => false
  | .sign w => !([")", "]", "\x7d", "++", "--"].contains w)
  | .word w _ => ["return", "typeof", "case", "in", "of", "delete", "void", "throw", "new", "do",
      "else", "instanceof", "yield", "await"].contains w
  | .eof => true

/-- Passes tokens up to the one that closes the bracket ahead, and gives the token after it and
whether a semicolon stands between the brackets. -/
def passBrackets : (fuel : Nat) → (open_ : List String) → (last : Token) → (parted : Bool) →
    Reading (Token × Bool)
  | 0, _, _, parted => return (.eof, parted)
  | fuel + 1, open_, last, parted => do
    let t := (← get).token
    let opened : Option (List String) ←
      match t with
      | .eof => pure none
      | .sign "(" => pure (some ("(" :: open_))
      | .sign "[" => pure (some ("[" :: open_))
      | .sign "\x7b" => pure (some ("\x7b" :: open_))
      | .sign ")" => pure (if open_.head? == some "(" then some open_.tail else none)
      | .sign "]" => pure (if open_.head? == some "[" then some open_.tail else none)
      | .sign "\x7d" =>
        match open_ with
        | "`" :: rest =>
          match ← rescanTemplate with
          | .template _ _ false => pure (some ("`" :: rest))
          | _ => pure (some rest)
        | "\x7b" :: rest => pure (some rest)
        | _ => pure none
      | .template _ _ false => pure (some ("`" :: open_))
      | .sign "/" | .sign "/=" =>
        if regexAfter last then
          let _ ← rescanRegex
          pure (some open_)
        else pure (some open_)
      | _ => pure (some open_)
    let parted := parted || (open_.length == 1 && t.isSign ";")
    match opened with
    | none => return (.eof, parted)
    | some open_ =>
      advance
      match open_ with
      | [] => return ((← get).token, parted)
      | _ => passBrackets fuel open_ t parted

/-- The token after the bracket ahead has been closed, and whether a line break stands before it. -/
def afterBrackets : Reading (Token × Bool) :=
  lookAhead
    (do
      let (t, _) ← passBrackets ((← get).source.size + 1) [] .eof false
      return (t, (← get).afterBreak))
    (.eof, false)

/-- Whether a semicolon stands right between the bracket ahead and the one that closes it. -/
def semicolonInside : Reading Bool :=
  lookAhead (do return (← passBrackets ((← get).source.size + 1) [] .eof false).2) false

/-- The token after the one ahead, and whether a line break stands before it. -/
def tokenAfter : Reading (Token × Bool) :=
  lookAhead (do advance; return ((← get).token, (← get).afterBreak)) (.eof, false)

/-- Whether the bracket ahead opens the parameters of an arrow function. -/
def arrowAhead : Reading Bool := do
  let (t, broken) ← afterBrackets
  return t.isSign "=>" && !broken

/-! ## Lists -/

def repeatRead {α : Type} (step : List α → Reading (List α × Bool)) :
    (fuel : Nat) → List α → Reading (List α)
  | 0, acc => return acc.reverse
  | fuel + 1, acc => do
    let (acc, more) ← step acc
    if more then repeatRead step fuel acc else return acc.reverse

/-- A bound for how often something can be repeated in the source. -/
def bound : Reading Nat := do return (← get).source.size + 2

/-! ## Functions -/

/-- What a parameter or a variable is bound to when it names something itself. -/
def bindingName (kind : Option DeclKind) : Reading String := do
  match ← nameAhead? with
  | none => failNameless "variable name expected"
  | some x =>
    if (← current).strict && (x == "eval" || x == "arguments") then
      fail "invalid variable name in strict mode"
    advance
    match kind with
    | some k => declare k x
    | none => pure ()
    return x

/-- The parameters of a function, after the parenthesis that opens them. -/
def readParams (r : Rules) : Reading (List Param × Bool × Nat) := do
  let one : List (Param × Bool × Bool) →
      Reading (List (Param × Bool × Bool) × Bool) := fun acc => do
    if ← isSign ")" then
      advance
      return (acc, false)
    let rest ← takeSign "..."
    let s ← get
    let (p, simple) ←
      match s.token with
      | .sign "[" | .sign "\x7b" => do
        let p ← r.pattern (some .let)
        pure (p, false)
      | _ => do
        let pos ← position
        match ← nameAhead? with
        | none => failNameless "missing formal parameter"
        | some x =>
          advance
          change fun f => { f with params := x :: f.params }
          pure (.name x pos, true)
    let default ←
      if rest then pure none
      else if ← takeSign "=" then some <$> r.assign true
      else pure none
    let acc := (Param.one p default rest, simple && default.isNone && !rest,
      default.isNone && !rest) :: acc
    if rest then
      if !(← isSign ")") then fail "expecting ')'"
      advance
      return (acc, false)
    if ← isSign ")" then
      advance
      return (acc, false)
    expectSign ","
    return (acc, true)
  let ps ← repeatRead one (← bound) []
  let length := (ps.takeWhile fun p => p.2.2).length
  return (ps.map (·.1), ps.all fun p => p.2.1, length)

/-- Whether the statement ahead is the directive that makes code strict. -/
def strictDirectiveAhead : Reading Bool := do
  match (← get).token with
  | .string _ =>
    let text ← tokenText
    let (t, broken) ← tokenAfter
    let ends :=
      match t with
      | .eof => true
      | .sign w =>
        w == ";" || w == "\x7d" || (broken && !([".", "(", "[", "+", "-", ",", "?"].contains w))
      | _ => broken
    return ends && (text == "'use strict'" || text == "\"use strict\"")
  | _ => return false

/-- Statements up to the brace that closes them, which is passed. -/
def readStatements (r : Rules) : Reading (List Stmt) := do
  repeatRead (fun acc => do
    if ← isSign "\x7d" then
      advance
      return (acc, false)
    let s ← r.statement .list
    return (s :: acc, true)) (← bound) []

/-- The directives at the start of a function's body: one of them may make it strict. -/
def readDirectives (simple : Bool) : Reading Unit := do
  if ← strictDirectiveAhead then
    if !simple then
      fail "\"use strict\" not allowed in function with default or destructuring parameter"
    change fun f => { f with strict := true }

/-- Checks the names of a function and of its parameters, once it is known whether it is strict. -/
def checkNames (name : String) (kind : FunctionKind) (simple : Bool) : Reading Unit := do
  let f ← current
  let special (x : String) : Bool := x == "eval" || x == "arguments"
  if f.strict then
    if special name then fail "invalid function name in strict code"
    if f.params.any special then fail "invalid argument name in strict code"
  let bound := (f.scopes.headD {}).lexical
  let rec repeats : List String → Bool
    | [] => false
    | x :: xs => xs.contains x || bound.contains x || repeats xs
  if (f.strict || !simple || kind != .plain) && repeats f.params then
    fail "duplicate argument names not allowed in this context"

/-- Statements up to the brace that closes them, which stays ahead. -/
def readBody (r : Rules) : Reading (List Stmt) := do
  repeatRead (fun acc => do
    if ← isSign "\x7d" then return (acc, false)
    let s ← r.statement .list
    return (s :: acc, true)) (← bound) []

/-- A function from its parameters on: after the opening parenthesis, or at the single parameter of
an arrow function. -/
def readFunctionRest (r : Rules) (name : String) (kind : FunctionKind) (isAsync isGenerator : Bool)
    (start : Nat) (pos : Pos) (bare : Bool) : Reading Function := do
  let outer ← current
  let isArrow := kind == .arrow
  enterFunction
    { strict := outer.strict
      isAsync
      isGenerator
      isArrow
      superCall := if isArrow then outer.superCall else kind == .derivedConstructor
      superMember :=
        if isArrow then outer.superMember
        else kind == .method || kind == .getter || kind == .setter || kind == .constructor
          || kind == .derivedConstructor
      newTarget := if isArrow then outer.newTarget else true
      argumentsAllowed := !isArrow || outer.argumentsAllowed
      inBody := false
      awaitsAround := outer.isAsync || outer.isStaticBlock
      yieldsAround := outer.isGenerator }
  let (params, simple, _) ←
    if bare then do
      let p ← position
      match ← nameAhead? with
      | some x =>
        advance
        change fun f => { f with params := [x] }
        pure ([Param.one (.name x p) none false], true, 1)
      | none => failNameless "missing formal parameter"
    else readParams r
  if kind == .getter && !params.isEmpty || kind == .setter && params.length != 1 then
    fail "invalid number of arguments for getter or setter"
  change fun f => { f with inBody := true }
  if isArrow then
    if (← get).afterBreak then fail "unexpected line terminator before '=>'"
    expectSign "=>"
  let hasBlock ← if isArrow then isSign "\x7b" else pure true
  let body ←
    if !hasBlock then do
      checkNames name kind simple
      let p ← position
      let e ← r.assign true
      pure [Stmt.ret (some e) p]
    else do
      if !(← isSign "\x7b") then fail "expecting '\x7b'"
      advance
      readDirectives simple
      checkNames name kind simple
      readBody r
  let s ← get
  let stop := if hasBlock then s.next else s.lastEnd
  let f ← leaveFunction
  if hasBlock then advance
  return .mk name kind isAsync isGenerator f.strict params body f.inner f.hasEval
    (f.used.contains "arguments") (sourceText s.source start stop) pos

/-- A function that is written with the word `function`, which is ahead, or with `async` before
it. -/
def readFunctionWord (r : Rules) (isAsync isExpression : Bool) (start : Nat) (pos : Pos)
    (anonymous : Bool) : Reading Function := do
  if isAsync then advance
  advance
  let isGenerator ← takeSign "*"
  let named ←
    match (← get).token with
    | .sign "(" =>
      if isExpression || anonymous then pure "" else fail "function name expected"
    | _ =>
      match ← nameAhead? with
      | some x =>
        if isExpression && ((x == "await" && isAsync) || (x == "yield" && isGenerator)) then
          failReserved x
        if !isExpression then declareFunction x
        advance
        pure x
      | none => failNameless "function name expected"
  expectSign "("
  readFunctionRest r named .plain isAsync isGenerator start pos false

/-! ## Names of properties -/

def readPropName (r : Rules) : Reading PropName := do
  let s ← get
  match s.token with
  | .word w _ =>
    advance
    return .fixed (Str.ofString w)
  | .string v =>
    advance
    return .fixed v
  | .number x =>
    advance
    return .fixed (Str.ofString (Numeral.text x))
  | .bigint n =>
    advance
    return .fixed (Str.ofString (toString n))
  | .sign "[" =>
    advance
    let e ← r.assign true
    expectSign "]"
    return .computed e
  | _ => fail "invalid property name"

/-- Whether the token ahead ends the name of a property, so that a word before it was that name. -/
def endsPropName (t : Token) : Bool :=
  match t with
  | .sign w => [",", "\x7d", ":", "(", "=", ";"].contains w
  | .eof => true
  | _ => false

/-- The words in front of a method. -/
structure MethodHead where
  isAsync : Bool := false
  isGenerator : Bool := false
  kind : MemberKind := .value

/-- Reads `async`, `*`, `get` and `set` in front of a method's name. -/
def readMethodHead (inClass : Bool) : Reading MethodHead := do
  let word (w : String) : Reading Bool := do
    if ← isWord w then
      let (t, broken) ← tokenAfter
      if endsPropName t || (inClass && w != "async" && broken && t.isSign "*") then return false
      else if w == "async" && broken then return false
      else return true
    else return false
  if ← word "get" then
    advance
    return { kind := .getter }
  else if ← word "set" then
    advance
    return { kind := .setter }
  else if ← word "async" then
    advance
    let g ← takeSign "*"
    return { isAsync := true, isGenerator := g, kind := .method }
  else if ← takeSign "*" then return { isGenerator := true, kind := .method }
  else return {}

/-- The parameters and the body of a method, from the opening parenthesis on. -/
def readMethod (r : Rules) (h : MethodHead) (kind : FunctionKind) (start : Nat) (pos : Pos) :
    Reading Function := do
  expectSign "("
  let kind := match h.kind with
    | .getter => .getter
    | .setter => .setter
    | _ => kind
  readFunctionRest r "" kind h.isAsync h.isGenerator start pos false

/-! ## Objects and arrays -/

/-- Elements separated by commas up to a closing sign; in an array, elements may be left out. -/
def readItems (r : Rules) (close : String) (holes : Bool) : Reading (List Item) := do
  repeatRead (fun acc => do
    if ← isSign close then
      advance
      return (acc, false)
    if holes then
      if ← takeSign "," then return (Item.hole :: acc, true)
    let item ←
      if ← takeSign "..." then Item.spread <$> r.assign true else Item.one <$> r.assign true
    if ← isSign close then
      advance
      return (item :: acc, false)
    if holes && !(← isSign ",") then fail ("expecting '" ++ close ++ "'")
    expectSign ","
    return (item :: acc, true)) (← bound) []

def readMember (r : Rules) : Reading Member := do
  let s ← get
  let pos ← position
  if ← takeSign "..." then return .spread (← r.assign true)
  let h ← readMethodHead false
  match h.kind with
  | .value =>
    let shorthand? ← nameAhead?
    let name ← readPropName r
    if ← takeSign ":" then return .entry name .value false (some (← r.assign true)) pos
    else if ← isSign "(" then
      let f ← readMethod r h .method s.start pos
      return .entry name .method false (some (.function f)) pos
    else
      match shorthand? with
      | some x =>
        mention x
        if x == "arguments" then mention x
        return .entry name .value false (some (.name x pos)) pos
      | none => fail "expecting ':'"
  | kind =>
    let name ← readPropName r
    let f ← readMethod r h .method s.start pos
    return .entry name kind false (some (.function f)) pos

def Member.setsPrototype : Member → Bool
  | .entry (.fixed n) .value _ (some (.name _ p)) pos =>
    n == Str.ofString "__proto__" && p != pos
  | .entry (.fixed n) .value _ _ _ => n == Str.ofString "__proto__"
  | _ => false

/-- An object literal, after its opening brace. -/
def readObject (r : Rules) : Reading Expr := do
  let members ← repeatRead (fun acc => do
    if ← isSign "\x7d" then
      advance
      return (acc, false)
    let m ← readMember r
    if m.setsPrototype && acc.any (·.setsPrototype) then
      fail "duplicate __proto__ property name"
    if ← isSign "\x7d" then
      advance
      return (m :: acc, false)
    if !(← isSign ",") then fail "expecting '\x7d'"
    advance
    return (m :: acc, true)) (← bound) []
  return .object members

/-- A template literal from a piece on: the pieces and the expressions between them. -/
def readTemplate (r : Rules) : Reading (List (Option Str) × List Str × List Expr) := do
  let parts ← repeatRead (fun acc => do
    match (← get).token with
    | .template cooked raw true =>
      advance
      return ((cooked, raw, none) :: acc, false)
    | .template cooked raw false =>
      advance
      let e ← readExpression
      if !(← isSign "\x7d") then fail "expected '\x7d' after template expression"
      let _ ← rescanTemplate
      return ((cooked, raw, some e) :: acc, true)
    | _ => unexpected) (← bound) []
  return (parts.map (·.1), parts.map (·.2.1), parts.filterMap (·.2.2))
where
  /-- An expression that may hold commas. -/
  readExpression : Reading Expr := do
    let first ← r.assign true
    let more ← repeatRead (fun acc => do
      if ← takeSign "," then return ((← r.assign true) :: acc, true) else return (acc, false))
      (← bound) []
    return more.foldl Expr.seq first

/-! ## Classes -/

/-- Runs a reading as the body of a function that sets up fields. -/
def asFieldFunction {α : Type} (read : Reading α) : Reading α := do
  enterFunction { strict := true, superMember := true, returns := false, argumentsAllowed := false }
  let a ← read
  let _ ← leaveFunction
  return a

def readFieldValue (r : Rules) : Reading (Option Expr) := do
  let value ← if ← takeSign "=" then some <$> asFieldFunction (r.assign true) else pure none
  expectSemicolon
  return value

/-- How a private name is declared. -/
inductive HiddenKind where
  | field
  | method
  | getter
  | setter
  deriving BEq

/-- A private name that a class has declared so far. -/
structure HiddenName where
  name : String
  kind : HiddenKind
  isStatic : Bool

/-- Whether a private name may be declared beside others: a name may have a getter and a setter, if
both or none are static. -/
def HiddenName.fits (x : HiddenName) (y : HiddenName) : Bool :=
  x.name != y.name || (x.isStatic == y.isStatic
    && ((x.kind == .getter && y.kind == .setter) || (x.kind == .setter && y.kind == .getter)))

/-- What has been read of the body of a class. -/
structure ClassBody where
  ctor : Option Function := none
  members : List Member := []
  hidden : List HiddenName := []

def ClassBody.declareHidden (b : ClassBody) (x : HiddenName) : Reading ClassBody := do
  if !b.hidden.all x.fits then fail "private class field is already defined"
  return { b with hidden := x :: b.hidden }

/-- A static block, at its brace. -/
def readStaticBlock (r : Rules) (pos : Pos) : Reading Member := do
  enterFunction
    { strict := true, superMember := true, returns := false, argumentsAllowed := false,
      isStaticBlock := true }
  advance
  let body ← readBody r
  let f ← leaveFunction
  advance
  return .block (.mk "" .fields false false true [] body f.inner f.hasEval false "" pos)

def readClassMember (r : Rules) (derived : Bool) (b : ClassBody) : Reading ClassBody := do
  let s ← get
  let pos ← position
  let isStatic ←
    if ← isWord "static" then do
      let (t, _) ← tokenAfter
      if endsPropName t && !(t.isSign "\x7b") then pure false
      else
        advance
        pure true
    else pure false
  if isStatic && (← isSign "\x7b") then
    let m ← readStaticBlock r pos
    return { b with members := m :: b.members }
  let h ← readMethodHead true
  let name ←
    match (← get).token with
    | .hidden x => do
      advance
      pure (PropName.hidden x)
    | _ => readPropName r
  let isNamed (x : String) : Bool :=
    match name with
    | .fixed n => n == Str.ofString x
    | .hidden y => x == "#" ++ y
    | .computed _ => false
  let plain := h.kind == .value
  if (isNamed "constructor" && !isStatic && !plain) || (isNamed "prototype" && isStatic)
      || isNamed "#constructor" then
    fail "invalid method name"
  let hidden? (kind : HiddenKind) : Option HiddenName :=
    match name with
    | .hidden x => some ⟨x, kind, isStatic⟩
    | _ => none
  let declare (kind : HiddenKind) (b : ClassBody) : Reading ClassBody :=
    match hidden? kind with
    | some x => b.declareHidden x
    | none => pure b
  let method (kind : MemberKind) (f : Function) : Member :=
    .entry name kind isStatic (some (.function f)) pos
  match h.kind with
  | .getter | .setter =>
    let b ← declare (if h.kind == .getter then .getter else .setter) b
    let f ← readMethod r h .method s.start pos
    return { b with members := method h.kind f :: b.members }
  | _ =>
    if plain && !(← isSign "(") then
      if isNamed "constructor" || isNamed "prototype" then fail "invalid field name"
      let b ← declare .field b
      let value ← readFieldValue r
      return { b with members := .entry name .field isStatic value pos :: b.members }
    else if plain && isNamed "constructor" && !isStatic then
      if b.ctor.isSome then fail "property constructor appears more than once"
      let f ← readMethod r h (if derived then .derivedConstructor else .constructor) s.start pos
      return { b with ctor := some f }
    else
      let f ← readMethod r h .method s.start pos
      let b ← declare .method b
      return { b with members := method .method f :: b.members }

/-- The members of a class up to the brace that closes it, which stays ahead. -/
def readClassBody (r : Rules) (derived : Bool) : (fuel : Nat) → ClassBody → Reading ClassBody
  | 0, _ => tooDeep
  | fuel + 1, b => do
    if ← isSign "\x7d" then return b
    else if ← takeSign ";" then readClassBody r derived fuel b
    else readClassBody r derived fuel (← readClassMember r derived b)

/-- A class; the word `class` is ahead. -/
def readClass (r : Rules) (isExpression anonymous : Bool) : Reading ClassTree := do
  let s ← get
  let pos ← position
  advance
  let outer ← current
  change fun f => { f with strict := true }
  let name ←
    match (← get).token with
    | .word "extends" false => pure none
    | .word w escaped =>
      match ← nameAhead? with
      | some x =>
        if x == "eval" || x == "arguments" then fail "invalid class name"
        advance
        pure (some x)
      | none => if escaped then failReserved w else fail "class statement requires a name"
    | _ => pure none
  if name.isNone && !isExpression && !anonymous then fail "class statement requires a name"
  if !isExpression then
    match name with
    | some x => declareLexical x
    | none => pure ()
  let parent ← if ← takeWord "extends" then some <$> r.postfix_ true else pure none
  if !(← isSign "\x7b") then fail "expecting '\x7b'"
  advance
  let b ← readClassBody r parent.isSome (← bound) {}
  let stop := (← get).next
  change fun f => { f with strict := outer.strict }
  advance
  return .mk name parent b.ctor b.members.reverse (sourceText s.source s.start stop) pos

/-! ## Expressions -/

def readExpression (r : Rules) (allowIn : Bool) : Reading Expr := do
  let first ← r.assign allowIn
  let more ← repeatRead (fun acc => do
    if ← takeSign "," then return ((← r.assign allowIn) :: acc, true) else return (acc, false))
    (← bound) []
  return more.foldl Expr.seq first

/-- An expression that is followed by nothing that belongs to it; the flag tells whether calls may
follow it. -/
def readPrimary (r : Rules) (calls : Bool) : Reading Expr := do
  let s ← get
  let pos ← position
  match s.token with
  | .number x =>
    advance
    return .number x
  | .bigint n =>
    advance
    return .bigint n
  | .string v =>
    advance
    return .string v
  | .template .. =>
    let (cooked, _, es) ← readTemplate r
    match cooked.mapM id with
    | some parts => return .template parts es
    | none => fail "malformed escape sequence in string literal"
  | .sign "/" | .sign "/=" =>
    match ← rescanRegex with
    | .regex body flags =>
      match Regex.Matcher.make body flags with
      | .ok r =>
        advance
        return .regex r pos
      | .error e => fail e
    | _ => unexpected
  | .sign "(" =>
    advance
    let e ← readExpression r true
    expectSign ")"
    return .paren e
  | .sign "[" =>
    advance
    return .array (← readItems r "]" true)
  | .sign "\x7b" =>
    advance
    readObject r
  | .word w escaped =>
    if !isReserved (← current) s.isModule w then
      if w == "async" && !escaped then
        let (t, broken) ← tokenAfter
        match t, broken with
        | .word "function" false, false =>
          return .function (← readFunctionWord r true true s.start pos false)
        | _, _ => pure ()
      if w == "arguments" && !(← current).argumentsAllowed then
        fail "'arguments' identifier is not allowed in class field initializer"
      advance
      mention w
      return .name w pos
    else if escaped then failReserved w
    else
      match w with
      | "function" => return .function (← readFunctionWord r false true s.start pos false)
      | "class" => return .class (← readClass r true false)
      | "null" =>
        advance
        return .null
      | "true" =>
        advance
        return .bool true
      | "false" =>
        advance
        return .bool false
      | "this" =>
        advance
        mention "this"
        return .this pos
      | "super" =>
        advance
        match (← get).token with
        | .sign "(" =>
          if !(← current).superCall then fail "super() is only valid in a derived class constructor"
          advance
          mention "this"
          mention "new.target"
          return .superCall (← readItems r ")" false) pos
        | .sign "." =>
          if !(← current).superMember then fail "'super' is only valid in a method"
          advance
          mention "this"
          let p ← position
          return .superMember (← readPropName r) p
        | .sign "[" =>
          if !(← current).superMember then fail "'super' is only valid in a method"
          advance
          mention "this"
          let e ← readExpression r true
          expectSign "]"
          return .superMember (.computed e) pos
        | _ => fail "invalid use of 'super'"
      | "import" =>
        advance
        if ← takeSign "." then
          if !(← isWord "meta") then fail "meta expected"
          if !(← get).isModule then fail "import.meta only valid in module code"
          advance
          return .importMeta
        else
          expectSign "("
          if !calls then fail "invalid use of 'import()'"
          let e ← r.assign true
          expectSign ")"
          return .importCall e pos
      | "new" =>
        advance
        if ← takeSign "." then
          if !(← isWord "target") then fail "expecting target"
          if (← current).isTop || !(← current).newTarget then
            fail "new.target only allowed within functions"
          advance
          mention "new.target"
          return .newTarget
        else
          let callee ← r.postfix_ false
          let args ←
            if ← takeSign "(" then readItems r ")" false else pure []
          return .new callee args pos
      | _ => unexpected
  | _ => unexpected

/-- Where a call of an expression is placed: at the name that is called. -/
def calleePos : Expr → Pos
  | .name _ p | .member _ _ p | .superMember _ p => p
  | .optional e | .paren e => calleePos e
  | _ => ⟨0, 0⟩

/-- What may follow an expression: members, calls and templates. -/
def readSuffixes (r : Rules) (calls : Bool) : (fuel : Nat) → Expr → (inChain : Bool) →
    Reading (Expr × Bool)
  | 0, _, _ => tooDeep
  | fuel + 1, e, inChain => do
    let s ← get
    let pos ← position
    match s.token with
    | .sign "." =>
      advance
      let p ← position
      match (← get).token with
      | .hidden x =>
        advance
        readSuffixes r calls fuel (.member e (.hidden x) p) inChain
      | .word w _ =>
        advance
        readSuffixes r calls fuel (.member e (.fixed (Str.ofString w)) p) inChain
      | _ => fail "expecting field name"
    | .sign "?." =>
      if !calls then fail "new keyword cannot be used with an optional chain"
      advance
      let p ← position
      let base := Expr.optional e
      match (← get).token with
      | .sign "(" =>
        advance
        let args ← readItems r ")" false
        readSuffixes r calls fuel (.call base args (calleePos e)) true
      | .sign "[" =>
        advance
        let i ← readExpression r true
        expectSign "]"
        readSuffixes r calls fuel (.member base (.computed i) p) true
      | .hidden x =>
        advance
        readSuffixes r calls fuel (.member base (.hidden x) p) true
      | .word w _ =>
        advance
        readSuffixes r calls fuel (.member base (.fixed (Str.ofString w)) p) true
      | .template .. => fail "template literal cannot appear in an optional chain"
      | _ => fail "expecting field name"
    | .sign "[" =>
      advance
      let i ← readExpression r true
      expectSign "]"
      readSuffixes r calls fuel (.member e (.computed i) pos) inChain
    | .sign "(" =>
      if !calls then return (e, inChain)
      advance
      let args ← readItems r ")" false
      match e with
      | .name "eval" _ =>
        change fun f => { f with hasEval := true }
        mention "this"
        mention "new.target"
      | _ => pure ()
      readSuffixes r calls fuel (.call e args (calleePos e)) inChain
    | .template .. =>
      if inChain then fail "template literal cannot appear in an optional chain"
      let (cooked, raw, es) ← readTemplate r
      readSuffixes r calls fuel (.tagged e cooked raw es (calleePos e)) inChain
    | _ => return (e, inChain)

/-- An expression with its members and, if wanted, its calls. -/
def readPostfix (r : Rules) (calls : Bool) : Reading Expr := do
  let e ← readPrimary r calls
  let (e, inChain) ← readSuffixes r calls (← bound) e false
  return if inChain then .chain e else e

/-- An expression as something to assign to. -/
def asTarget? : Expr → Option Pattern
  | .name x p => some (.name x p)
  | .member e n p => some (.member (.member e n p))
  | .superMember n p => some (.member (.superMember n p))
  | .paren e => asTarget? e
  | _ => none

def checkTarget (p : Pattern) : Reading Unit := do
  match p with
  | .name x _ =>
    if (← current).strict && (x == "eval" || x == "arguments") then
      fail "invalid lvalue in strict mode"
  | _ => return

/-- An operand with `++` or `--` after it. -/
def readUpdate (r : Rules) : Reading Expr := do
  let e ← readPostfix r true
  let s ← get
  let pos ← position
  match s.token with
  | .sign w =>
    if (w == "++" || w == "--") && !s.afterBreak then
      match asTarget? e with
      | some p =>
        checkTarget p
        advance
        return .update p (if w == "++" then 1 else -1) false pos
      | none => fail "invalid increment/decrement operand"
    else return e
  | _ => return e

/-- The operators with one operand, by their signs and words. -/
def unaryOp? : Token → Option UnaryOp
  | .sign "-" => some .neg
  | .sign "+" => some .plus
  | .sign "!" => some .not
  | .sign "~" => some .bitNot
  | .word "typeof" false => some .typeof
  | .word "void" false => some .void
  | .word "delete" false => some .delete
  | _ => none

/-- Whether a mention of a private name, or of a variable, is what an expression ends with. -/
def deletes : Expr → Option String
  | .name .. => some "cannot delete a direct reference in strict mode"
  | .member _ (.hidden _) _ => some "cannot delete a private class field"
  | .paren e => deletes e
  | .seq _ e => deletes e
  | _ => none

/-- An expression with the operators in front of it, and powers. -/
def readUnary (r : Rules) (powers : Powers) : Reading Expr := do
  let s ← get
  let pos ← position
  match unaryOp? s.token with
  | some op =>
    advance
    let e ← r.unary .ambiguous
    match op, deletes e with
    | .delete, some message => if (← current).strict then fail message
    | _, _ => pure ()
    return .unary op e pos
  | none =>
    match s.token with
    | .sign w =>
      if w == "++" || w == "--" then
        advance
        let e ← r.unary .ignored
        match asTarget? e with
        | some p =>
          checkTarget p
          raised (.update p (if w == "++" then 1 else -1) true pos)
        | none => fail "invalid increment/decrement operand"
      else raised (← readUpdate r)
    | .word "await" false =>
      let f ← current
      let isTop := f.isTop && s.isModule
      if f.isAsync || isTop then
        if !f.inBody then fail "await in default expression"
        if isTop then modify fun s => { s with awaits := true }
        advance
        return .await (← r.unary .ambiguous) pos
      else if isReserved f s.isModule "await" then fail "unexpected 'await' keyword"
      else raised (← readUpdate r)
    | _ => raised (← readUpdate r)
where
  /-- An operand, perhaps raised to a power. -/
  raised (e : Expr) : Reading Expr := do
    if powers == .ignored || !(← isSign "**") then return e
    if powers == .ambiguous then
      failUnplaced
        "unparenthesized unary expression can't appear on the left-hand side of '**'"
    let pos ← position
    advance
    return .binary .pow e (← r.unary .allowed) pos

/-- The operators with two operands at each level, from the tightest. -/
def binaryOps : List (List (String × BinaryOp)) :=
  [[("*", .mul), ("/", .div), ("%", .rem)],
    [("+", .add), ("-", .sub)],
    [("<<", .shl), (">>", .sar), (">>>", .shr)],
    [("<", .lt), (">", .gt), ("<=", .le), (">=", .ge)],
    [("==", .eq), ("!=", .ne), ("===", .strictEq), ("!==", .strictNe)],
    [("&", .and)], [("^", .xor)], [("|", .or)]]

/-- The operator ahead, if it belongs to a level. -/
def opAhead? (ops : List (String × BinaryOp)) (allowIn : Bool) : Reading (Option BinaryOp) := do
  let relational := ops.any fun (w, _) => w == "<"
  match (← get).token with
  | .sign w => return ops.lookup w
  | .word "instanceof" false => return if relational then some .instanceOf else none
  | .word "in" false => return if relational && allowIn then some .in else none
  | _ => return none

/-- The private name ahead, if `in` comes after it and may do so. -/
def hiddenAhead? (allowed : Bool) : Reading (Option String) := do
  match (← get).token with
  | .hidden x =>
    match (← tokenAfter).1 with
    | .word "in" false => return if allowed then some x else none
    | _ => return none
  | _ => return none

/-- Operands joined by the operators of some levels, the loosest first. -/
def readBinary (r : Rules) (allowIn : Bool) : List (List (String × BinaryOp)) → Reading Expr
  | [] => readUnary r .allowed
  | ops :: tighter => do
    match ← hiddenAhead? (allowIn && ops.any fun (w, _) => w == "<") with
    | some x =>
      advance
      advance
      return .hasHidden x (← readBinary r allowIn tighter)
    | none => pure ()
    let first ← readBinary r allowIn tighter
    let more ← repeatRead (fun acc => do
      let pos ← position
      match ← opAhead? ops allowIn with
      | some op =>
        advance
        let e ← readBinary r allowIn tighter
        return ((op, e, pos) :: acc, true)
      | none => return (acc, false)) (← bound) []
    return more.foldl (fun a (op, b, pos) => .binary op a b pos) first

/-- Operands joined by operators that may skip their second one. -/
def readLogical (r : Rules) (allowIn : Bool) : Reading Expr := do
  let operand := readBinary r allowIn binaryOps.reverse
  let chain (sign : String) (op : LogicalOp) (operand : Reading Expr) (first : Expr) :
      Reading Expr := do
    let more ← repeatRead (fun acc => do
      if ← takeSign sign then return ((← operand) :: acc, true)
      else return (acc, false)) (← bound) []
    return more.foldl (Expr.logical op) first
  let first ← operand
  if ← isSign "??" then
    let e ← chain "??" .nullish operand first
    if (← isSign "&&") || (← isSign "||") then fail "cannot mix ?? with && or ||"
    return e
  else
    let conjunction := do chain "&&" .and operand (← operand)
    let e ← chain "||" .or conjunction (← chain "&&" .and operand first)
    if ← isSign "??" then fail "cannot mix ?? with && or ||"
    return e

/-- A condition with its two outcomes, or an operand. -/
def readConditional (r : Rules) (allowIn : Bool) : Reading Expr := do
  let test ← readLogical r allowIn
  if ← takeSign "?" then
    let yes ← r.assign true
    expectSign ":"
    let no ← r.assign allowIn
    return .cond test yes no
  else return test

def assignOps : List (String × BinaryOp) :=
  [("+=", .add), ("-=", .sub), ("*=", .mul), ("/=", .div), ("%=", .rem), ("**=", .pow),
    ("<<=", .shl), (">>=", .sar), (">>>=", .shr), ("&=", .and), ("|=", .or), ("^=", .xor)]

/-- The operators that assign, or leave the target alone. -/
def assignLogicalOps : List (String × LogicalOp) := [("&&=", .and), ("||=", .or), ("??=", .nullish)]

def readYield (r : Rules) (allowIn : Bool) : Reading Expr := do
  let pos ← position
  if !(← current).inBody then fail "yield in default expression"
  advance
  let s ← get
  if s.afterBreak then return .yield none false pos
  match s.token with
  | .eof => return .yield none false pos
  | .sign w =>
    if w == "*" then
      advance
      return .yield (some (← r.assign allowIn)) true pos
    else if [")", "]", "\x7d", ",", ";", ":"].contains w then return .yield none false pos
    else return .yield (some (← r.assign allowIn)) false pos
  | .word "in" false | .word "of" false => return .yield none false pos
  | _ => return .yield (some (← r.assign allowIn)) false pos

/-- The start of an arrow function, if one is ahead: whether it is asynchronous, and whether its
parameter stands without parentheses. -/
def arrowStart? : Reading (Option (Bool × Bool)) := do
  match (← get).token with
  | .sign "(" => return if ← arrowAhead then some (false, false) else none
  | .word "async" false =>
    let (t, broken) ← tokenAfter
    if broken then return none
    match t with
    | .sign "=>" => return some (false, true)
    | .sign "(" =>
      let isArrow ← lookAhead (do advance; arrowAhead) false
      return if isArrow then some (true, false) else none
    | .word w _ =>
      let f ← current
      if isReserved { f with isAsync := true } (← get).isModule w then return none
      let (t, broken) ← lookAhead (do advance; tokenAfter) (.eof, false)
      return if t.isSign "=>" && !broken then some (true, true) else none
    | _ => return none
  | .word .. =>
    match ← nameAhead? with
    | none => return none
    | some _ =>
      let (t, broken) ← tokenAfter
      return if t.isSign "=>" && !broken then some (false, true) else none
  | _ => return none

/-- An expression without a comma. -/
def readAssign (r : Rules) (allowIn : Bool) : Reading Expr := do
  let s ← get
  let pos ← position
  let f ← current
  match s.token with
  | .word "yield" false => if f.isGenerator then return ← readYield r allowIn
  | _ => pure ()
  match ← arrowStart? with
  | some (isAsync, bare) =>
    if isAsync then advance
    if !bare then advance
    return .function (← readFunctionRest r "" .arrow isAsync false s.start pos bare)
  | none => pure ()
  let opensPattern ←
    match s.token with
    | .sign "[" | .sign "\x7b" => do
      let (t, _) ← afterBrackets
      pure (t.isSign "=")
    | _ => pure false
  if opensPattern then
    let p ← r.pattern none
    expectSign "="
    return .assign p (← r.assign allowIn) pos
  let e ← readConditional r allowIn
  match (← get).token with
  | .sign w =>
    if w == "=" then
      advance
      let p ← target e
      return .assign p (← r.assign allowIn) pos
    else
      match assignOps.lookup w, assignLogicalOps.lookup w with
      | some op, _ =>
        let at_ ← position
        advance
        let p ← target e
        return .assignWith op p (← r.assign allowIn) at_
      | none, some op =>
        let at_ ← position
        advance
        let p ← target e
        return .assignLogical op p (← r.assign allowIn) at_
      | none, none => return e
  | _ => return e
where
  /-- What an expression before an assigning operator assigns to. -/
  target (e : Expr) : Reading Pattern := do
    match asTarget? e with
    | some p =>
      checkTarget p
      return p
    | none => fail "invalid assignment left-hand side"

/-! ## Patterns -/

/-- A name that a pattern binds, or what else it may assign to. -/
def readSingleTarget (r : Rules) (kind : Option DeclKind) (pos : Pos) : Reading Pattern := do
  match kind with
  | some k =>
    match ← nameAhead? with
    | some x =>
      if (← current).strict && (x == "eval" || x == "arguments") then
        fail "invalid destructuring target"
      advance
      declare k x
      return .name x pos
    | none => fail "invalid destructuring target"
  | none =>
    let e ← readPostfix r true
    match asTarget? e with
    | some p =>
      checkTarget p
      return p
    | none => fail "invalid destructuring target"

/-- What one element of a pattern binds or assigns. -/
def readPatternTarget (r : Rules) (kind : Option DeclKind) : Reading Pattern := do
  let s ← get
  let pos ← position
  let nested ←
    match s.token with
    | .sign "[" | .sign "\x7b" =>
      match kind with
      | some _ => pure true
      | none => do
        let (t, _) ← afterBrackets
        pure ([",", "=", "]", "\x7d", ")"].any t.isSign)
    | _ => pure false
  if nested then r.pattern kind else readSingleTarget r kind pos

/-- The value that an element takes if there is none. -/
def readDefault (r : Rules) : Reading (Option Expr) := do
  if ← takeSign "=" then some <$> r.assign true else return none

/-- An array pattern, after its opening bracket. -/
def readArrayPattern (r : Rules) (kind : Option DeclKind) : Reading Pattern := do
  let items ← repeatRead (fun (acc : List (PatternItem ⊕ Pattern)) => do
    if ← isSign "]" then
      advance
      return (acc, false)
    if ← takeSign "," then return (.inl .hole :: acc, true)
    if ← takeSign "..." then
      let p ← readPatternTarget r kind
      if !(← isSign "]") then fail "rest element must be the last one"
      advance
      return (.inr p :: acc, false)
    let p ← readPatternTarget r kind
    let d ← readDefault r
    let acc := .inl (.one p d) :: acc
    if ← isSign "]" then
      advance
      return (acc, false)
    expectSign ","
    return (acc, true)) (← bound) []
  let rest := items.findSome? fun i => match i with | .inr p => some p | .inl _ => none
  return .array (items.filterMap fun i => match i with | .inl p => some p | .inr _ => none) rest

/-- An object pattern, after its opening brace. -/
def readObjectPattern (r : Rules) (kind : Option DeclKind) : Reading Pattern := do
  let entries ← repeatRead (fun (acc : List (PatternEntry ⊕ Pattern)) => do
    if ← isSign "\x7d" then
      advance
      return (acc, false)
    if ← takeSign "..." then
      let p ← readSingleTarget r kind (← position)
      if !(← isSign "\x7d") then fail "assignment rest property must be last"
      advance
      return (.inr p :: acc, false)
    let pos ← position
    let shorthand? ← nameAhead?
    let name ← readPropName r
    let entry ←
      if ← takeSign ":" then do
        let p ← readPatternTarget r kind
        let d ← readDefault r
        pure (PatternEntry.entry name p d pos)
      else
        match shorthand? with
        | none => fail "expecting ':'"
        | some x => do
          if (← current).strict && (x == "eval" || x == "arguments") then
            fail "invalid destructuring target"
          match kind with
          | some k => declare k x
          | none => mention x
          let d ← readDefault r
          pure (.entry name (.name x pos) d pos)
    let acc := .inl entry :: acc
    if ← isSign "\x7d" then
      advance
      return (acc, false)
    expectSign ","
    return (acc, true)) (← bound) []
  let rest := entries.findSome? fun i => match i with | .inr p => some p | .inl _ => none
  return .object (entries.filterMap fun i => match i with | .inl p => some p | .inr _ => none) rest

def readPattern (r : Rules) (kind : Option DeclKind) : Reading Pattern := do
  match (← get).token with
  | .sign "[" =>
    advance
    readArrayPattern r kind
  | _ =>
    expectSign "\x7b"
    readObjectPattern r kind

/-! ## Statements -/

/-- The variables of a declaration, after its word. -/
def readDeclarators (r : Rules) (kind : DeclKind) (allowIn : Bool) : Reading (List Declarator) := do
  repeatRead (fun acc => do
    let pos ← position
    let d ←
      match (← get).token with
      | .sign "[" | .sign "\x7b" => do
        if !((← afterBrackets).1.isSign "=") then fail "variable name expected"
        let p ← r.pattern (some kind)
        expectSign "="
        pure (Declarator.mk p (some (← r.assign allowIn)) pos)
      | _ => do
        let x ← bindingName (some kind)
        if ← takeSign "=" then pure (.mk (.name x pos) (some (← r.assign allowIn)) pos)
        else
          if kind == .const then fail "missing initializer for const variable"
          pure (.mk (.name x pos) none pos)
    if ← takeSign "," then return (d :: acc, true) else return (d :: acc, false)) (← bound) []

/-- A statement that no declaration may take the place of. -/
def readBody1 (r : Rules) : Reading Stmt := r.statement .single

def inLoop {α : Type} (read : Reading α) : Reading α := do
  change fun f => { f with loops := f.loops + 1 }
  let a ← read
  change fun f => { f with loops := f.loops - 1 }
  return a

/-- A condition in parentheses. -/
def readTest (r : Rules) : Reading Expr := do
  expectSign "("
  let e ← readExpression r true
  expectSign ")"
  return e

/-- The rest of a loop over the elements or keys of something, from `of` or `in` on. -/
def readForEach (r : Rules) (head : ForHead) (isAwait : Bool) (pos : Pos) : Reading Stmt := do
  if ← takeWord "of" then
    let e ← r.assign true
    expectSign ")"
    return .forOf head e (← inLoop (readBody1 r)) isAwait pos
  else if isAwait then fail "'for await' loop should be used with 'of'"
  else if ← takeWord "in" then
    let e ← readExpression r true
    expectSign ")"
    return .forIn head e (← inLoop (readBody1 r)) pos
  else fail "expected 'of' or 'in' in for control expression"

/-- The rest of a counting loop, after its first semicolon. -/
def readForRest (r : Rules) (init : Option Stmt) : Reading Stmt := do
  let test ← if ← isSign ";" then pure none else some <$> readExpression r true
  expectSign ";"
  let update ← if ← isSign ")" then pure none else some <$> readExpression r true
  expectSign ")"
  return .forLoop init test update (← inLoop (readBody1 r))

def letAhead (f : FunctionState) : Reading Bool := do
  if !(← isWord "let") then return false
  if f.strict then return true
  match (← tokenAfter).1 with
  | .sign w => return w == "[" || w == "\x7b"
  | .word w _ => return !(["in", "instanceof", "of"].contains w)
  | _ => return false

def declAhead? : Reading (Option DeclKind) := do
  if ← isWord "var" then return some .var
  if ← isWord "const" then return some .const
  if ← letAhead (← current) then return some .let
  return none

/-- What a loop over something binds or assigns. -/
def readForHead (r : Rules) (isAwait : Bool) : Reading ForHead := do
  match ← declAhead? with
  | some kind =>
    advance
    let pos ← position
    match (← get).token with
    | .sign "[" | .sign "\x7b" => return .declare kind (← r.pattern (some kind))
    | _ => return .declare kind (.name (← bindingName (some kind)) pos)
  | none =>
    let isOf : Token → Bool
      | .word w _ => w == "of"
      | _ => false
    if !isAwait && (← isWord "async") && isOf (← tokenAfter).1 then
      fail "'for of' expression cannot start with 'async'"
    let opensPattern ←
      match (← get).token with
      | .sign "[" | .sign "\x7b" => do
        let (t, _) ← afterBrackets
        pure (match t with | .word w _ => w == "of" || w == "in" | _ => false)
      | _ => pure false
    if opensPattern then return .assign (← r.pattern none)
    else
      let e ← readPostfix r true
      match asTarget? e with
      | some p =>
        checkTarget p
        return .assign p
      | none => fail "invalid for in/of left hand-side"

/-- A `for` loop, after its word. -/
def readFor (r : Rules) : Reading Stmt := do
  let isAwait ←
    if ← isWord "await" then do
      let f ← current
      if !(f.isAsync || (f.isTop && (← get).isModule)) then
        fail "for await is only valid in asynchronous functions"
      if f.isTop then modify fun s => { s with awaits := true }
      advance
      pure true
    else pure false
  let counts ← if ← isSign "(" then semicolonInside else pure true
  expectSign "("
  enterBlock
  let pos ← position
  let loop ←
    if !counts then do
      let head ← readForHead r isAwait
      if ← takeSign "=" then
        let _ ← r.assign false
        if (← isWord "of") || (← isWord "in") then
          fail ("a declaration in the head of a for-" ++ (← tokenText)
            ++ " loop can't have an initializer")
      readForEach r head isAwait pos
    else
      match ← declAhead? with
      | some kind => do
        advance
        let ds ← readDeclarators r kind false
        expectSign ";"
        readForRest r (some (.declare kind ds))
      | none =>
        if ← takeSign ";" then readForRest r none
        else
          let e ← readExpression r false
          expectSign ";"
          readForRest r (some (.expr e pos))
  leaveBlock
  return loop

/-- A block, after its opening brace; the body of a `catch` clause must not declare the name that
the clause binds. -/
def readBlock (r : Rules) (caught : Option String) : Reading (List Stmt) := do
  enterBlock
  change fun f => { f with scopes := { f.scopes.headD {} with caught } :: f.scopes.tail }
  let ss ← readStatements r
  leaveBlock
  return ss

/-- A `try` statement, after its word. -/
def readTry (r : Rules) : Reading Stmt := do
  expectSign "\x7b"
  let body ← readBlock r none
  let handler ←
    if ← takeWord "catch" then do
      enterBlock
      let param ←
        if ← takeSign "(" then do
          let pos ← position
          let p ←
            match (← get).token with
            | .sign "[" | .sign "\x7b" => r.pattern (some .let)
            | _ => do
              match ← nameAhead? with
              | some x => do
                advance
                pure (Pattern.name x pos)
              | none => fail "identifier expected"
          expectSign ")"
          pure (some p)
        else pure none
      expectSign "\x7b"
      let ss ← readBlock r (match param with | some (.name x _) => some x | _ => none)
      leaveBlock
      pure (some (Handler.mk param ss))
    else pure none
  let final ←
    if ← takeWord "finally" then do
      expectSign "\x7b"
      some <$> readBlock r none
    else pure none
  if handler.isNone && final.isNone then fail "expecting catch or finally"
  return .tryCatch body handler final

/-- A `switch` statement, after its word. -/
def readSwitch (r : Rules) : Reading Stmt := do
  let e ← readTest r
  expectSign "\x7b"
  enterBlock
  change fun f => { f with switches := f.switches + 1 }
  let cases ← repeatRead (fun acc => do
    if ← isSign "\x7d" then
      advance
      return (acc, false)
    let test ←
      if ← takeWord "case" then do
        let e ← readExpression r true
        expectSign ":"
        pure (some e)
      else if ← takeWord "default" then do
        if acc.any fun c => match c with | Case.mk none _ => true | _ => false then
          fail "duplicate default"
        expectSign ":"
        pure none
      else fail "invalid switch statement"
    let body ← repeatRead (fun acc => do
      if (← isSign "\x7d") || (← isWord "case") || (← isWord "default") then return (acc, false)
      let s ← r.statement .list
      return (s :: acc, true)) (← bound) []
    return (Case.mk test body :: acc, true)) (← bound) []
  change fun f => { f with switches := f.switches - 1 }
  leaveBlock
  return .switch e cases

/-- `break` or `continue`, which is ahead. -/
def readJump (isBreak : Bool) : Reading Stmt := do
  advance
  let f ← current
  let label ← if (← get).afterBreak then pure none else nameAhead?
  match label with
  | some l =>
    match f.labels.lookup l with
    | some isLoop =>
      if !isBreak && !isLoop then fail "break/continue label not found"
      advance
      expectSemicolon
    | none => fail "break/continue label not found"
  | none =>
    if isBreak then
      if f.loops == 0 && f.switches == 0 then fail "break must be inside loop or switch"
    else if f.loops == 0 then fail "continue must be inside loop"
    expectSemicolon
  return if isBreak then .breakTo label else .continueTo label

/-- A statement with a label, which is ahead. -/
def readLabelled (r : Rules) (label : String) : Reading Stmt := do
  if ((← current).labels.lookup label).isSome then fail "duplicate label name"
  advance
  advance
  let isLoop := (← isWord "for") || (← isWord "while") || (← isWord "do")
  change fun f => { f with labels := (label, isLoop) :: f.labels }
  let s ← r.statement .single
  change fun f => { f with labels := f.labels.tail }
  return .labelled label s

def readStatement (r : Rules) (place : Place) : Reading Stmt := do
  let s ← get
  let pos ← position
  let f ← current
  let lexicalAllowed : Reading Unit := do
    if place == .single then
      fail "lexical declarations can't appear in single-statement context"
  let expression : Reading Stmt := do
    let e ← readExpression r true
    expectSemicolon
    return .expr e pos
  match s.token with
  | .sign "\x7b" =>
    advance
    return .block (← readBlock r none)
  | .sign ";" =>
    advance
    return .empty
  | .word w escaped =>
    if !escaped && (← letAhead f) then
      lexicalAllowed
      advance
      let ds ← readDeclarators r .let true
      expectSemicolon
      return .declare .let ds
    match (if escaped then "" else w) with
    | "var" =>
      advance
      let ds ← readDeclarators r .var true
      expectSemicolon
      return .declare .var ds
    | "const" =>
      lexicalAllowed
      advance
      let ds ← readDeclarators r .const true
      expectSemicolon
      return .declare .const ds
    | "function" =>
      if place == .single then
        fail "function declarations can't appear in single-statement context"
      return .function (← readFunctionWord r false false s.start pos false)
    | "class" =>
      if place == .single then
        fail "class declarations can't appear in single-statement context"
      return .class (← readClass r false false)
    | "if" =>
      advance
      let test ← readTest r
      let yes ← readBody1 r
      let no ← if ← takeWord "else" then some <$> readBody1 r else pure none
      return .ifElse test yes no
    | "for" =>
      advance
      readFor r
    | "while" =>
      advance
      let test ← readTest r
      return .whileLoop test (← inLoop (readBody1 r))
    | "do" =>
      advance
      let body ← inLoop (readBody1 r)
      expectWord "while"
      let test ← readTest r
      let _ ← takeSign ";"
      return .doWhile body test
    | "return" =>
      if f.isTop || !f.returns then fail "return not in a function"
      advance
      let s ← get
      let bare ←
        match s.token with
        | .eof => pure true
        | .sign v => pure (v == ";" || v == "\x7d" || s.afterBreak)
        | _ => pure s.afterBreak
      let e ← if bare then pure none else some <$> readExpression r true
      expectSemicolon
      return .ret e pos
    | "break" => readJump true
    | "continue" => readJump false
    | "throw" =>
      advance
      if (← get).afterBreak then fail "line terminator not allowed after throw"
      let e ← readExpression r true
      expectSemicolon
      return .throw e pos
    | "try" =>
      advance
      readTry r
    | "switch" =>
      advance
      readSwitch r
    | "debugger" =>
      advance
      expectSemicolon
      return .debugger
    | "with" =>
      if f.strict then fail "invalid keyword: with" else fail "unsupported keyword: with"
    | "enum" | "export" | "extends" => fail ("unsupported keyword: " ++ w)
    | _ =>
      if w == "async" && !escaped then
        let (t, broken) ← tokenAfter
        match t, broken with
        | .word "function" false, false =>
          if place == .single then
            fail "function declarations can't appear in single-statement context"
          return .function (← readFunctionWord r true false s.start pos false)
        | _, _ => pure ()
      match ← nameAhead? with
      | some label =>
        let (t, _) ← tokenAfter
        if t.isSign ":" then readLabelled r label else expression
      | none => expression
  | _ => expression

/-- The rules for sources nested up to some levels. -/
def rules : Nat → Rules
  | 0 => .exhausted
  | n + 1 =>
    { assign := fun allowIn => readAssign (rules n) allowIn
      unary := fun powers => readUnary (rules n) powers
      postfix_ := fun calls => readPostfix (rules n) calls
      statement := fun place => readStatement (rules n) place
      pattern := fun kind => readPattern (rules n) kind }

end ScriptSandbox.Language
