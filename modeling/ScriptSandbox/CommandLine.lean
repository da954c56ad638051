import ScriptSandbox.Engine.Kind

/-!
# The command line

`jsbox run FILE`, `jsbox resolve SPECIFIER...` and `jsbox scan FILE`, with the options that each of
them has. Options may stand before and after the operands; `--` ends them. The value of an option
follows it, as the next word or after an equals sign.

A value is looked at when the next argument has been recognised, so of two mistakes the one that
an unknown argument makes is reported before that of the value in front of it.
-/

namespace ScriptSandbox

/-- What the program is asked to do. -/
inductive Command where
  | run (file : String) (engine : EngineKind) (config : Option String) (json : Bool)
  | resolve (specifiers : List String) (cdnRoot : Option String)
  | scan (file : String)
  deriving DecidableEq, Repr, Inhabited

/-- What there is help about. -/
inductive HelpTopic where
  | program
  | run
  | resolve
  | scan
  | help
  deriving DecidableEq, Repr, Inhabited

/-- Why a command line asks for nothing that can be done; the first three ask for help. -/
inductive UsageError where
  | displayHelp (topic : HelpTopic)
  | displayHelpOnMissingArgumentOrSubcommand
  | displayVersion
  | invalidSubcommand
  | unknownArgument
  | invalidValue
  | valueValidation
  | tooManyValues
  | argumentConflict
  | missingRequiredArgument
  deriving DecidableEq, Repr, Inhabited

namespace UsageError

def name : UsageError → String
  | .displayHelp _ => "DisplayHelp"
  | .displayHelpOnMissingArgumentOrSubcommand => "DisplayHelpOnMissingArgumentOrSubcommand"
  | .displayVersion => "DisplayVersion"
  | .invalidSubcommand => "InvalidSubcommand"
  | .unknownArgument => "UnknownArgument"
  | .invalidValue => "InvalidValue"
  | .valueValidation => "ValueValidation"
  | .tooManyValues => "TooManyValues"
  | .argumentConflict => "ArgumentConflict"
  | .missingRequiredArgument => "MissingRequiredArgument"

/-- The exit code: asking for help or for the version is no failure. -/
def exitCode : UsageError → Nat
  | .displayHelp _ | .displayVersion => 0
  | _ => 2

end UsageError

namespace CommandLine

/-- What an argument accepts. -/
structure Argument where
  /-- The name of an option, without its dashes. -/
  name : String
  takesValue : Bool := true
  /-- Whether it may be given more than once. -/
  many : Bool := false
  /-- What is wrong with a value. -/
  fault? : String → Option UsageError := fun _ => none

/-- What a subcommand accepts: options, and operands of one sort. -/
structure Grammar where
  topic : HelpTopic
  options : List Argument
  operand : Argument

/-- An argument with the values given so far. -/
abbrev Given : Type := Argument × List String

/-- What has been read of a subcommand's arguments. -/
structure Progress where
  /-- The values of the arguments that are complete, by name. -/
  values : List (String × List String) := []
  /-- The argument read last, whose values have not been looked at. -/
  pending : Option Given := none
  /-- Whether the argument read last waits for its value. -/
  waiting : Bool := false
  /-- How many operands there have been. -/
  operands : Nat := 0

namespace Progress

/-- Looks at the values of an argument and keeps them. -/
def accept (p : Progress) (a : Argument) (vs : List String) : Except UsageError Progress :=
  if a.takesValue && vs.isEmpty then .error .invalidValue
  else if !a.many && (p.values.lookup a.name).isSome then .error .argumentConflict
  else
    match vs.findSome? a.fault? with
    | some e => .error e
    | none => .ok { p with values := p.values ++ [(a.name, vs)] }

/-- Looks at the values of the argument read last. -/
def settle (p : Progress) : Except UsageError Progress :=
  match p.pending with
  | none => .ok p
  | some (a, vs) => { p with pending := none, waiting := false }.accept a vs

def valuesOf (p : Progress) (name : String) : List String :=
  (p.values.filter (·.1 == name)).flatMap (·.2)

end Progress

/-- A word as an option with two dashes: its name, and the value after an equals sign. -/
def longOption? (w : String) : Option (String × Option String) :=
  match w.toList with
  | '-' :: '-' :: c :: cs =>
    let name := (c :: cs).takeWhile (· != '=')
    match (c :: cs).dropWhile (· != '=') with
    | [] => some (String.ofList name, none)
    | _ :: value => some (String.ofList name, some (String.ofList value))
  | _ => none

/-- A word as an option with one dash: its first letter. -/
def shortOption? (w : String) : Option Char :=
  match w.toList with
  | '-' :: c :: _ => if c == '-' then none else some c
  | _ => none

def readOperand (g : Grammar) (w : String) (p : Progress) : Except UsageError Progress :=
  if p.operands > 0 && !g.operand.many then .error .unknownArgument
  else
    match p.pending with
    | some (a, vs) =>
      if a.name == g.operand.name && a.many then
        .ok { p with pending := some (a, vs ++ [w]), operands := p.operands + 1 }
      else do
        let p ← p.settle
        return { p with pending := some (g.operand, [w]), operands := p.operands + 1 }
    | none => .ok { p with pending := some (g.operand, [w]), operands := p.operands + 1 }

def readLong (g : Grammar) (name : String) (value : Option String) (p : Progress) :
    Except UsageError Progress :=
  if name == "help" then
    if value.isSome then .error .tooManyValues
    else do
      let _ ← p.settle
      .error (.displayHelp g.topic)
  else
    match g.options.find? (·.name == name), value with
    | none, _ => .error .unknownArgument
    | some a, some v =>
      if a.takesValue then do (← p.settle).accept a [v] else .error .tooManyValues
    | some a, none => do
      let p ← p.settle
      if a.takesValue then return { p with pending := some (a, []), waiting := true }
      else p.accept a []

def readWords (g : Grammar) : (optionsEnded : Bool) → List String → Progress →
    Except UsageError Progress
  | _, [], p => p.settle
  | true, w :: ws, p => do readWords g true ws (← readOperand g w p)
  | false, w :: ws, p =>
    if w == "--" then readWords g true ws p
    else
      match longOption? w with
      | some (name, value) => do readWords g false ws (← readLong g name value p)
      | none =>
        match shortOption? w with
        | some 'h' => do
          let _ ← p.settle
          .error (.displayHelp g.topic)
        | some _ => .error .unknownArgument
        | none =>
          match p.waiting, p.pending with
          | true, some (a, _) =>
            readWords g false ws { p with pending := some (a, [w]), waiting := false }
          | _, _ => do readWords g false ws (← readOperand g w p)

def pathFault (s : String) : Option UsageError := if s.isEmpty then some .invalidValue else none

def engineFault (s : String) : Option UsageError :=
  match EngineKind.ofName s with
  | .ok _ => none
  | .error _ => some .valueValidation

def fileOperand : Argument := { name := "FILE", fault? := pathFault }

def runGrammar : Grammar where
  topic := .run
  options :=
    [{ name := "engine", fault? := engineFault }, { name := "config", fault? := pathFault },
      { name := "json", takesValue := false }]
  operand := fileOperand

def resolveGrammar : Grammar where
  topic := .resolve
  options := [{ name := "cdn-root" }]
  operand := { name := "SPECIFIER", many := true }

def scanGrammar : Grammar := ⟨.scan, [], fileOperand⟩

def readSubcommand (name : String) (ws : List String) : Except UsageError Command :=
  match name with
  | "run" => do
    let p ← readWords runGrammar false ws {}
    let file :: _ := p.valuesOf "FILE" | .error .missingRequiredArgument
    let engine :=
      match (p.valuesOf "engine").head?.map EngineKind.ofName with
      | some (.ok k) => k
      | _ => .standard
    return .run file engine (p.valuesOf "config").head? ((p.values.lookup "json").isSome)
  | "resolve" => do
    let p ← readWords resolveGrammar false ws {}
    let s :: ss := p.valuesOf "SPECIFIER" | .error .missingRequiredArgument
    return .resolve (s :: ss) (p.valuesOf "cdn-root").head?
  | "scan" => do
    let p ← readWords scanGrammar false ws {}
    let file :: _ := p.valuesOf "FILE" | .error .missingRequiredArgument
    return .scan file
  | _ => .error .invalidSubcommand

/-- The names of the subcommands, with what there is help about. -/
def subcommands : List (String × HelpTopic) :=
  [("run", .run), ("resolve", .resolve), ("scan", .scan), ("help", .help)]

/-- What `help` answers for the names after it. -/
def helpFor : List String → UsageError
  | [] => .displayHelp .program
  | [name] =>
    match subcommands.lookup name with
    | some topic => .displayHelp topic
    | none => .invalidSubcommand
  | _ => .invalidSubcommand

/-- Reads a command line, without the name of the program. -/
def read (ws : List String) : Except UsageError Command :=
  match ws with
  | [] => .error .displayHelpOnMissingArgumentOrSubcommand
  | w :: rest =>
    if w == "--" then
      match rest with
      | [] => .error .displayHelpOnMissingArgumentOrSubcommand
      | name :: _ =>
        if (subcommands.lookup name).isSome then .error .unknownArgument
        else .error .invalidSubcommand
    else
      match longOption? w with
      | some ("help", none) => .error (.displayHelp .program)
      | some ("version", none) => .error .displayVersion
      | some ("help", some _) | some ("version", some _) => .error .tooManyValues
      | some _ => .error .unknownArgument
      | none =>
        match shortOption? w with
        | some 'h' => .error (.displayHelp .program)
        | some 'V' => .error .displayVersion
        | some _ => .error .unknownArgument
        | none => if w == "help" then .error (helpFor rest) else readSubcommand w rest

end CommandLine
end ScriptSandbox
