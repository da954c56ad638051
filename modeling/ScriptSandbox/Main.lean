import ScriptSandbox.CommandLine.Perform
import ScriptSandbox.Sandbox.Contexts

/-!
# The program

Reads what the command needs, lets the library do the rest, and prints. There is no client for the
network here: a module on the web cannot be fetched.
-/

namespace ScriptSandbox.Main

/-- What an origin holds, unless it cannot be read. -/
def readOrigin (o : Origin) : IO (Option String) := do
  try
    match o with
    | .standardInput => return some (← (← IO.getStdin).readToEnd)
    | .file path => return some (← IO.FS.readFile path)
  catch _ => return none

def readOrigins (os : List Origin) : IO Readable := do
  let read ← os.mapM fun o => return (o, ← readOrigin o)
  return fun o => (read.lookup o).join

/-- The surroundings of the program: there is no network. -/
def surroundings : Surroundings :=
  .onNetwork fun url => .error ("error sending request for url (" ++ url ++ ")")

/-- What the program leaves. -/
def report (args : List String) : IO Report := do
  match CommandLine.read args with
  | .error e => return e.report
  | .ok c => return c.report Contexts.vm surroundings (← readOrigins c.origins)

end ScriptSandbox.Main

/-- Does what the command line asks for. -/
def main (args : List String) : IO UInt32 := do
  let r ← ScriptSandbox.Main.report args
  IO.print r.output
  IO.eprint r.complaint
  return r.exitCode.toUInt32
