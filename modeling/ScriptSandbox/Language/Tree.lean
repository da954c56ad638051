import ScriptSandbox.Regex.Match

/-!
# Programs as trees

What the reader of the guest language yields and the compiler takes. Names are kept as written;
which variable a name means is settled by the compiler.

An expression that is followed by `=` and turns out to be a pattern is turned into a `Pattern`
by the reader; the trees of this file therefore never hold one as an expression.
-/

namespace ScriptSandbox.Language

/-- A place in a source: lines and columns count from one, columns in characters. -/
structure Pos where
  line : Nat
  column : Nat
  deriving BEq, Inhabited, Repr

/-- How variables are declared. -/
inductive DeclKind where
  | var
  | «let»
  | const
  deriving BEq, Inhabited, Repr

/-- Operators with two operands, both of which are evaluated. -/
inductive BinaryOp where
  | add | sub | mul | div | rem | pow
  | shl | sar | shr | and | or | xor
  | lt | le | gt | ge | eq | ne | strictEq | strictNe
  | «in» | instanceOf
  deriving BEq, Inhabited, Repr

/-- Operators whose second operand may not be evaluated. -/
inductive LogicalOp where
  | and | or | nullish
  deriving BEq, Inhabited, Repr

/-- Operators with one operand. -/
inductive UnaryOp where
  | neg | plus | not | bitNot | typeof | void | delete
  deriving BEq, Inhabited, Repr

/-- What a function is. -/
inductive FunctionKind where
  | plain
  | arrow
  | method
  | getter
  | setter
  | constructor
  | derivedConstructor
  /-- Sets up the fields of a new object, or runs a static block. -/
  | fields
  deriving BEq, Inhabited, Repr

/-- How a property of an object or a class comes about. -/
inductive MemberKind where
  | value
  | method
  | getter
  | setter
  | field
  deriving BEq, Inhabited, Repr

mutual

/-- The name of a property. -/
inductive PropName where
  | fixed (name : Str)
  | computed (e : Expr)
  /-- A private name. -/
  | hidden (name : String)

/-- An expression. -/
inductive Expr where
  | undefined
  | null
  | bool (b : Bool)
  | number (x : Float)
  | bigint (n : Nat)
  | string (s : Str)
  | regex (r : Regex.Matcher) (pos : Pos)
  | template (parts : List Str) (exprs : List Expr)
  | tagged (tag : Expr) (cooked : List (Option Str)) (raw : List Str) (exprs : List Expr)
    (pos : Pos)
  | name (x : String) (pos : Pos)
  | this (pos : Pos)
  | newTarget
  | importMeta
  | array (items : List Item)
  | object (members : List Member)
  | function (f : Function)
  | class (c : ClassTree)
  | unary (op : UnaryOp) (e : Expr) (pos : Pos)
  /-- `++` or `--`, before or after its operand. -/
  | update (target : Pattern) (by_ : Int) (before : Bool) (pos : Pos)
  | binary (op : BinaryOp) (a b : Expr) (pos : Pos)
  | logical (op : LogicalOp) (a b : Expr)
  | assign (target : Pattern) (e : Expr) (pos : Pos)
  | assignWith (op : BinaryOp) (target : Pattern) (e : Expr) (pos : Pos)
  | assignLogical (op : LogicalOp) (target : Pattern) (e : Expr) (pos : Pos)
  | cond (test yes no : Expr)
  | seq (a b : Expr)
  | member (e : Expr) (name : PropName) (pos : Pos)
  | superMember (name : PropName) (pos : Pos)
  | call (callee : Expr) (args : List Item) (pos : Pos)
  | new (callee : Expr) (args : List Item) (pos : Pos)
  | superCall (args : List Item) (pos : Pos)
  | importCall (e : Expr) (pos : Pos)
  | yield (e : Option Expr) (each : Bool) (pos : Pos)
  | await (e : Expr) (pos : Pos)
  /-- The rest of the chain is skipped if this is null or undefined. -/
  | optional (e : Expr)
  /-- A whole chain with optional links. -/
  | chain (e : Expr)
  | paren (e : Expr)
  /-- `#x in e`. -/
  | hasHidden (name : String) (e : Expr)

/-- An element of a list of arguments or of an array. -/
inductive Item where
  | hole
  | one (e : Expr)
  | spread (e : Expr)

/-- A member of an object literal or of a class. -/
inductive Member where
  | entry (name : PropName) (kind : MemberKind) (isStatic : Bool) (value : Option Expr) (pos : Pos)
  | spread (e : Expr)
  /-- `{ x = e }`, which only a pattern may hold. -/
  | withDefault (name : String) (e : Expr) (pos : Pos)
  /-- `static { … }`. -/
  | block (f : Function)

/-- What is assigned to. -/
inductive Pattern where
  | name (x : String) (pos : Pos)
  | member (e : Expr)
  | array (items : List PatternItem) (rest : Option Pattern)
  | object (entries : List PatternEntry) (rest : Option Pattern)

/-- An element of an array pattern. -/
inductive PatternItem where
  | hole
  | one (p : Pattern) (default : Option Expr)

/-- A member of an object pattern. -/
inductive PatternEntry where
  | entry (name : PropName) (p : Pattern) (default : Option Expr) (pos : Pos)

/-- A parameter. -/
inductive Param where
  | one (p : Pattern) (default : Option Expr) (rest : Bool)

/-- A function. -/
inductive Function where
  | mk (name : String) (kind : FunctionKind) (isAsync isGenerator strict : Bool)
      (params : List Param) (body : List Stmt)
      /- Names that occur in the functions inside, and whether `eval` is called anywhere inside,
      and whether `arguments` is mentioned. -/
      (innerNames : List String) (hasEval usesArguments : Bool)
      (source : String) (pos : Pos)

/-- A class. -/
inductive ClassTree where
  | mk (name : Option String) (parent : Option Expr) (ctor : Option Function)
      (members : List Member) (source : String) (pos : Pos)

/-- A statement. -/
inductive Stmt where
  | empty
  | expr (e : Expr) (pos : Pos)
  | declare (kind : DeclKind) (decls : List Declarator)
  | function (f : Function)
  | class (c : ClassTree)
  | ret (e : Option Expr) (pos : Pos)
  | ifElse (test : Expr) (yes : Stmt) (no : Option Stmt)
  | whileLoop (test : Expr) (body : Stmt)
  | doWhile (body : Stmt) (test : Expr)
  | forLoop (init : Option Stmt) (test update : Option Expr) (body : Stmt)
  | forIn (head : ForHead) (e : Expr) (body : Stmt) (pos : Pos)
  | forOf (head : ForHead) (e : Expr) (body : Stmt) (isAwait : Bool) (pos : Pos)
  | breakTo (label : Option String)
  | continueTo (label : Option String)
  | throw (e : Expr) (pos : Pos)
  | tryCatch (body : List Stmt) (handler : Option Handler) (final : Option (List Stmt))
  | switch (e : Expr) (cases : List Case)
  | labelled (label : String) (s : Stmt)
  | block (ss : List Stmt)
  | debugger
  /-- `export default e`. -/
  | exportDefault (e : Expr)

/-- One variable or pattern of a declaration. -/
inductive Declarator where
  | mk (p : Pattern) (e : Option Expr) (pos : Pos)

/-- What a `for` loop over something binds or assigns. -/
inductive ForHead where
  | declare (kind : DeclKind) (p : Pattern)
  | assign (p : Pattern)

/-- A `catch` clause. -/
inductive Handler where
  | mk (param : Option Pattern) (body : List Stmt)

/-- A clause of a `switch`. -/
inductive Case where
  | mk (test : Option Expr) (body : List Stmt)

end

instance : Inhabited Expr := ⟨.undefined⟩
instance : Inhabited Stmt := ⟨.empty⟩
instance : Inhabited Item := ⟨.hole⟩
instance : Inhabited PropName := ⟨.fixed default⟩
instance : Inhabited Pattern := ⟨.name "" default⟩
instance : Inhabited Function :=
  ⟨.mk "" .plain false false true [] [] [] false false "" default⟩
instance : Inhabited ClassTree := ⟨.mk none none none [] "" default⟩
instance : Inhabited Member := ⟨.spread .undefined⟩
instance : Inhabited ForHead := ⟨.assign default⟩

/-- A name that a module takes from another: its name there, `*` for the whole module. -/
structure ImportEntry where
  /-- The place of the module among those requested. -/
  request : Nat
  imported : String
  name : String

/-- A name that a module gives to others. -/
inductive ExportEntry where
  /-- A variable of the module, under a name for others. -/
  | own (exported name : String)
  /-- A name of another module; `*` is that module as a whole. -/
  | from (request : Nat) (exported imported : String)
  /-- All names of another module. -/
  | all (request : Nat)

/-- A whole source. -/
structure Program where
  body : Function
  isModule : Bool
  /-- The names of the modules requested, in order, without repetition. -/
  requests : List String := []
  imports : List ImportEntry := []
  exports : List ExportEntry := []
  /-- Whether a module awaits outside every function. -/
  awaits : Bool := false

end ScriptSandbox.Language
