import ScriptSandbox.Guest.Marshal
import ScriptSandbox.Library.Member

/-!
# The console

What guest code prints becomes one line of text, which the host keeps together with its level and
the time.
-/

namespace ScriptSandbox.Library

open Exec

def keepLine (level : LogLevel) (content : String) : Exec Unit :=
  modify fun m =>
    { m with host := { m.host with logs := m.host.logs.push ⟨level, content, m.presentTime⟩ } }

/-- Writes values as a line and keeps it; a console that keeps nothing does not even look. -/
def consoleFn (level : LogLevel) (keeps : Bool) (c : NativeCall) : Exec Value := do
  if keeps then keepLine level (← Marshal.formatArgs c.args.toList)
  return .undefined

/-- Keeps a line at the level that the first value names. -/
def recordFn (c : NativeCall) : Exec Value := do
  let level := ((LogLevel.ofName (← toText (c.arg 0))).toOption).getD .log
  keepLine level (← Marshal.formatArgs (c.args.toList.drop 1))
  return .undefined

end ScriptSandbox.Library
