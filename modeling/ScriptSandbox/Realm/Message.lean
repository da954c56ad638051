import ScriptSandbox.Outcome.Basic

/-!
# Messages between host and realm

The host asks a realm to execute code or to stop; a realm says once that it is ready, and then
answers each request with an outcome. On the wire a message is an object whose member `type` names
its kind, wherever it stands.
-/

namespace ScriptSandbox

/-- A message to a realm. -/
inductive HostMessage where
  | executeCode (code : String)
  | shutdown
  deriving DecidableEq, Repr, Inhabited

/-- A message from a realm. -/
inductive RealmMessage where
  | executionResult (outcome : Outcome)
  | ready
  deriving DecidableEq, Repr, Inhabited

namespace HostMessage

def toJson : HostMessage → Json.Value
  | .executeCode code => .object [("type", .text "execute-code"), ("code", .text code)]
  | .shutdown => .object [("type", .text "shutdown")]

def decoder : Json.Decoder HostMessage :=
  .tagged "HostMessage" "type"
    [("execute-code",
        .record "struct variant HostMessage::ExecuteCode"
          [.of "code" true .text id fun x _ => some x] none fun d => .executeCode (d.getD "")),
      ("shutdown", .bare .shutdown)]

end HostMessage

namespace RealmMessage

def toJson : RealmMessage → Json.Value
  | .executionResult o => .object [("type", .text "execution-result"), ("result", o.toJson)]
  | .ready => .object [("type", .text "iframe-ready")]

def decoder : Json.Decoder RealmMessage :=
  .tagged "RealmMessage" "type"
    [("execution-result",
        .record "struct variant RealmMessage::ExecutionResult"
          [.of "result" true Outcome.decoder id fun x _ => some x] none
          fun d => .executionResult (d.getD {})),
      ("iframe-ready", .bare .ready)]

end RealmMessage
end ScriptSandbox
