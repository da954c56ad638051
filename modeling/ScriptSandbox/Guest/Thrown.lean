import ScriptSandbox.Guest.Failure
import ScriptSandbox.Guest.Marshal
import ScriptSandbox.Text.Class

/-!
# What was thrown

Takes a thrown value apart: a string is a text; an object with a name or a message that is a string
is structured; anything else is shown as JSON or described.
-/

namespace ScriptSandbox.GuestError

open Exec Marshal

/-- A thrown value as a failure. -/
def ofValue (v : Value) : Exec GuestError := do
  match text? v with
  | some s => return .text s
  | none =>
    let name ← textOf v "name"
    let message ← textOf v "message"
    if name.isSome || message.isSome then
      let stack ← textOf v "stack"
      let stack := (stack.map Text.trimEndString).filter (!·.isEmpty)
      return .structured (name.getD "Error") (message.getD "") stack
    else
      match ← toJson v with
      | some s => return .other s
      | none => return .other (← describe v)

end ScriptSandbox.GuestError
