import ScriptSandbox.Json.Decoder

/-!
# Kinds of engine

Guest code runs either in an interpreter that is made anew for each call, or in a realm that lives
on between calls.
-/

namespace ScriptSandbox

/-- What runs the guest code. -/
inductive EngineKind where
  | interpreter
  | realm
  deriving DecidableEq, Repr, Inhabited

namespace EngineKind

def name : EngineKind → String
  | .interpreter => "interpreter"
  | .realm => "realm"

/-- The kind used where none is asked for. -/
def standard : EngineKind := .interpreter

def ofName : String → Except String EngineKind
  | "interpreter" => .ok .interpreter
  | "realm" => .ok .realm
  | other => .error ("unknown engine '" ++ other ++ "' (expected 'interpreter' or 'realm')")

/-- A kind is written as its name. -/
def toJson (k : EngineKind) : Json.Value := .text k.name

def decoder : Json.Decoder EngineKind :=
  .oneOfNames [("interpreter", .interpreter), ("realm", .realm)]

end EngineKind
end ScriptSandbox
