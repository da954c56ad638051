import ScriptSandbox.Machine.Convert

/-!
# Values as text

How values of guest code are shown outside: as JSON where there is any, as strings where they are
strings, and as a short description otherwise. Guest code may have replaced the functions that are
used for this, and takes part in its own getters; whatever it throws or however it is stopped, there
is always some text.
-/

namespace ScriptSandbox.Marshal

open Exec

/-- Runs an operation; there is no result if it throws or is interrupted. -/
def caught {α : Type} (act : Exec α) : Exec (Option α) := do
  match ← attempt act with
  | .value a => return some a
  | .thrown _ => return none

/-- The well-formed text of a string. -/
def text? : Value → Option String
  | .str s => s.toString?
  | _ => none

/-- A property that is a string, as text. -/
def textOf (v : Value) (name : String) : Exec (Option String) := do
  match v with
  | .obj _ => return ((← caught (getNamed v name)).bind text?)
  | _ => return none

/-- A function among the globals, by the names that lead to it, and whether there is one. -/
def globalFunction (path : List String) : Exec (Option Value) := do
  let rec go (v : Value) : List String → Exec (Option Value)
    | [] => do return if ← isCallable v then some v else none
    | name :: rest => do
      match v with
      | .obj _ =>
        match ← caught (getNamed v name) with
        | some w => go w rest
        | none => return none
      | _ => return none
  go (.obj Intrinsic.global.address) path

/-- A value as JSON, if it has any. -/
def toJson (v : Value) : Exec (Option String) := do
  match ← globalFunction ["JSON", "stringify"] with
  | none => return none
  | some f => return ((← caught (call f .undefined #[v, .undefined, .int 2])).bind text?)

/-- What a value is called when nothing else can be said about it. -/
def bareName : Value → String
  | .int _ => "[Int]"
  | .num _ => "[Float]"
  | .bool _ => "[Bool]"
  | .big _ => "[BigInt]"
  | .str _ => "[String]"
  | .sym _ => "[Symbol]"
  | _ => "[Unknown]"

def describe (v : Value) : Exec String := do
  match v with
  | .undefined | .hole => return "undefined"
  | .null => return "null"
  | .obj a =>
    if (← getObj a).isCallable then
      match ← textOf v "name" with
      | some name =>
        return if name.isEmpty then "[Function (anonymous)]" else "[Function: " ++ name ++ "]"
      | none => return "[Function (anonymous)]"
    else if ((← caught (valueIsArray v)).getD false) then
      let n ← caught (getValue v lengthKey)
      let count :=
        match n with
        | some (.int n) => n
        | _ => 0
      return "[Array(" ++ toString count ++ ")]"
    else
      let name ← do
        match ← caught (getValue v constructorKey) with
        | some c => textOf c "name"
        | none => pure none
      return "[object " ++ ((name.filter (!·.isEmpty)).getD "Object") ++ "]"
  | v =>
    match ← globalFunction ["String"] with
    | none => return bareName v
    | some f =>
      match ← caught (call f .undefined #[v]) with
      | some r => return (text? r).getD (bareName v)
      | none => return bareName v

/-- A value as a string, if it is one, or as JSON, or as a description. -/
def stringify (v : Value) : Exec String := do
  match text? v with
  | some s => return s
  | none =>
    match ← toJson v with
    | some s => return s
    | none => describe v

/-- The text of a value that a run ends with; there is none for undefined. -/
def completion (v : Value) : Exec (Option String) := do
  if v.isUndefined then return none else some <$> stringify v

/-- The arguments of a console call as one line. -/
def formatArgs (args : List Value) : Exec String := do
  let parts ← args.mapM stringify
  return " ".intercalate parts

end ScriptSandbox.Marshal
