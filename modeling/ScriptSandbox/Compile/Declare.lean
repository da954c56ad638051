import ScriptSandbox.Compile.Emit

/-!
# Declarations

Which names a list of statements declares, and where: `var` names belong to the function around,
lexical names to the block, and a function declared in a block is there from its start.
-/

namespace ScriptSandbox.Compile

open ScriptSandbox.Language

def boundNames : (fuel : Nat) → Pattern → List String
  | 0, _ => []
  | _ + 1, .name x _ => [x]
  | _ + 1, .member _ => []
  | fuel + 1, .array items rest =>
    items.flatMap (fun i =>
      match i with
      | .hole => []
      | .one p _ => boundNames fuel p)
      ++ rest.toList.flatMap (boundNames fuel)
  | fuel + 1, .object entries rest =>
    entries.flatMap (fun e =>
      match e with
      | .entry _ p _ _ => boundNames fuel p)
      ++ rest.toList.flatMap (boundNames fuel)

/-- How deeply patterns and statements are looked into. -/
def depthLimit : Nat := 4000

def patternNames (p : Pattern) : List String := boundNames depthLimit p

def declaratorNames (ds : List Declarator) : List String :=
  ds.flatMap fun d => match d with | .mk p _ _ => patternNames p

/-- The names of `var` in a statement and the statements inside it. -/
def varsIn : (fuel : Nat) → Stmt → List String
  | 0, _ => []
  | fuel + 1, s =>
    let all (ss : List Stmt) : List String := ss.flatMap (varsIn fuel)
    let head (h : ForHead) : List String :=
      match h with
      | .declare .var p => patternNames p
      | _ => []
    match s with
    | .declare .var ds => declaratorNames ds
    | .ifElse _ yes no => varsIn fuel yes ++ all no.toList
    | .whileLoop _ body | .doWhile body _ | .labelled _ body => varsIn fuel body
    | .forLoop init _ _ body => all init.toList ++ varsIn fuel body
    | .forIn h _ body _ => head h ++ varsIn fuel body
    | .forOf h _ body _ _ => head h ++ varsIn fuel body
    | .tryCatch body handler final =>
      all body
        ++ (handler.toList.flatMap fun h => match h with | .mk _ ss => all ss)
        ++ final.toList.flatMap all
    | .switch _ cases => cases.flatMap fun c => match c with | .mk _ ss => all ss
    | .block ss => all ss
    | _ => []

def varNames (ss : List Stmt) : List String :=
  (ss.flatMap (varsIn depthLimit)).eraseDups

/-- The lexical names that some statements declare in their block, and whether each is a
constant. -/
def lexicalNames (ss : List Stmt) : List (String × Bool) :=
  ss.flatMap fun s =>
    match s with
    | .declare .let ds => (declaratorNames ds).map fun x => (x, false)
    | .declare .const ds => (declaratorNames ds).map fun x => (x, true)
    | .class (.mk (some x) ..) => [(x, false)]
    | .exportDefault _ => [("*default*", false)]
    | _ => []

/-- The functions that some statements declare in their block. -/
def functionsIn (ss : List Stmt) : List Function :=
  ss.filterMap fun s =>
    match s with
    | .function f => some f
    | _ => none

def functionName : Function → String
  | .mk name .. => name

def declareLexicals (ss : List Stmt) (inCell : Bool) : Compiling Unit :=
  (lexicalNames ss).forM fun (x, isConst) => do
    let _ ← declare x (if isConst then .const else .lexical) inCell

/-- Declares names that have a value from the start, unless the innermost block has them. -/
def declareVars (names : List String) (inCell : Bool) : Compiling Unit :=
  names.forM fun x => do
    let f ← current
    let known := (f.scopes.headD {}).vars.any (·.name == x)
    if !known then
      let _ ← declare x .var inCell

end ScriptSandbox.Compile
