import ScriptSandbox.Outcome.Log

/-!
# Outcomes of guest code

An `Outcome` is what one execution leaves: the console output, and either the rendered completion
value or an error text. `completed` and `failed` never set both; an outcome that arrives from
outside may, and `normalized` then lets the error win.
-/

namespace ScriptSandbox

/-- What one execution left. -/
structure Outcome where
  logs : List LogEntry := []
  returnValue : Option String := none
  error : Option String := none
  deriving DecidableEq, Repr, Inhabited

namespace Outcome

/-- The guest finished; no value stands for `undefined`. -/
def completed (logs : List LogEntry) (value : Option String) : Outcome := ⟨logs, value, none⟩

/-- The guest threw or was stopped; an empty text becomes `Error`. -/
def failed (logs : List LogEntry) (error : String) : Outcome :=
  ⟨logs, none, some (if error.isEmpty then "Error" else error)⟩

/-- Whether the execution failed. -/
def isError (o : Outcome) : Bool := o.error.isSome

/-- Drops the value of a failed outcome. -/
def normalized (o : Outcome) : Outcome :=
  if o.error.isSome then { o with returnValue := none } else o

/-- The outcome as a JSON object; absent parts are left out. -/
def toJson (o : Outcome) : Json.Value :=
  .object <|
    [("logs", .list (o.logs.map LogEntry.toJson))]
      ++ (o.returnValue.map fun v => ("returnValue", Json.Value.text v)).toList
      ++ (o.error.map fun e => ("error", Json.Value.text e)).toList

/-- An outcome whose fields are not all known yet. -/
structure Draft where
  logs : Option (List LogEntry) := none
  returnValue : Option (Option String) := none
  error : Option (Option String) := none

def fields : List (Json.Decoder.Field Draft) :=
  [.of "logs" true (.list LogEntry.decoder) (·.logs) fun x d => { d with logs := some x },
    .of "returnValue" false (.option .text) (·.returnValue)
      fun x d => { d with returnValue := some x },
    .of "error" false (.option .text) (·.error) fun x d => { d with error := some x }]

def ofDraft (d : Draft) : Outcome :=
  ⟨d.logs.getD [], d.returnValue.getD none, d.error.getD none⟩

def decoder : Json.Decoder Outcome := .record "struct ExecutionResult" fields {} ofDraft

/-- The outcome for a reader: one line for each console call, then the value, then the error. -/
def rendered (o : Outcome) : String :=
  "\n".intercalate <|
    o.logs.map (fun e => "[" ++ e.level.name ++ "] " ++ e.content)
      ++ (o.returnValue.map ("=> " ++ ·)).toList
      ++ (o.error.map ("!! " ++ ·)).toList

end Outcome
end ScriptSandbox
