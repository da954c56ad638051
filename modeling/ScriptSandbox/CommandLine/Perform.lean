import ScriptSandbox.CommandLine.Help
import ScriptSandbox.Engine.Choice

/-!
# Doing what the command line asks for

A command prints to standard output what it was asked for. Whatever keeps it from that - a file
that cannot be read, settings that are wrong, an engine that gives no outcome - is a complaint on
standard error, with nothing on standard output. A guest that fails has an outcome, which is
printed; the exit code tells that it failed.
-/

namespace ScriptSandbox

/-- What the program leaves. -/
structure Report where
  output : String := ""
  complaint : String := ""
  exitCode : Nat := 0
  deriving DecidableEq, Repr, Inhabited

/-- Something the program reads. -/
inductive Origin where
  | standardInput
  | file (path : String)
  deriving DecidableEq, Repr, Inhabited

namespace Origin

/-- Where a source comes from: a single dash stands for standard input, whatever slashes and dots
follow it. -/
def ofOperand (path : String) : Origin :=
  match path.splitOn "/" with
  | first :: rest =>
    if first == "-" && rest.all (fun s => s == "" || s == ".") then .standardInput else .file path
  | [] => .file path

def unreadable : Origin → String
  | .standardInput => "failed to read source from stdin"
  | .file path => "failed to read " ++ path

end Origin

/-- What can be read; nothing where reading fails. -/
abbrev Readable : Type := Origin → Option String

def printed (lines : List String) : String := String.join (lines.map (· ++ "\n"))

def Report.failure (why : String) : Report where
  complaint := "Error: " ++ why ++ "\n"
  exitCode := 1

def Outcome.shown (json : Bool) (o : Outcome) : String :=
  if json then printed [o.toJson.pretty]
  else if o.rendered.isEmpty then ""
  else printed [o.rendered]

namespace Command

/-- What a command reads, in order. -/
def origins : Command → List Origin
  | .run file _ config _ => (config.map .file).toList ++ [.ofOperand file]
  | .resolve _ _ => []
  | .scan file => [.ofOperand file]

def settings (read : Readable) (config : Option String) : Except String Settings :=
  match config with
  | none => .ok {}
  | some path =>
    match Settings.ofFile (read (.file path)) with
    | .ok s => .ok s
    | .error e => .error ("failed to load settings from " ++ path ++ ": " ++ e.message)

def source (read : Readable) (file : String) : Except String String :=
  let origin := Origin.ofOperand file
  match read origin with
  | some s => .ok s
  | none => .error origin.unreadable

variable {κ ν : Type}

def runOn (vm : Vm κ ν) (around : Surroundings) (engine : EngineKind) (s : Settings)
    (source : String) : Except EngineError Outcome :=
  match (Engine.new engine s : Engine κ).prepare vm around with
  | (.error e, _) => .error e
  | (.ok _, e) => (e.execute vm source).1

/-- Does what is asked for. -/
def attempt (vm : Vm κ ν) (around : Surroundings) (read : Readable) :
    Command → Except String Report
  | .run file engine config json => do
    let settings ← settings read config
    let source ← source read file
    match runOn vm around engine settings source with
    | .error e => .error e.message
    | .ok o => .ok { output := o.shown json, exitCode := if o.isError then 1 else 0 }
  | .resolve specifiers root =>
    let r : Resolver := (root.map fun cdnRoot => .ofSettings { cdnRoot }).getD .standard
    .ok { output := printed (specifiers.map fun s => s ++ "\t" ++ r.resolve s) }
  | .scan file => do
    let source ← source read file
    return { output := printed (Scan.scanImports source) }

/-- What the program leaves when it has done what is asked for, or has failed to. -/
def report (vm : Vm κ ν) (around : Surroundings) (read : Readable) (c : Command) : Report :=
  match c.attempt vm around read with
  | .ok r => r
  | .error why => .failure why

end Command

/-- The report on a command line that asks for nothing that can be done. -/
def UsageError.report (e : UsageError) : Report :=
  match e with
  | .displayHelp topic => { output := printed [topic.text] }
  | .displayVersion => { output := printed [versionText] }
  | .displayHelpOnMissingArgumentOrSubcommand =>
    { complaint := printed [HelpTopic.program.text], exitCode := e.exitCode }
  | e => { complaint := printed ["error: " ++ e.name], exitCode := e.exitCode }

end ScriptSandbox
