import ScriptSandbox.Json.Decoder

/-!
# Console output

What guest code prints is kept as a list of entries: the console method that was called, the text,
and the time of the call. `LogEntry.decoder` reads what `LogEntry.toJson` writes, with the fields
in any order.
-/

namespace ScriptSandbox

/-- A console method that records. -/
inductive LogLevel where
  | log
  | error
  | warn
  | info
  deriving DecidableEq, Repr, Inhabited

namespace LogLevel

/-- Every level, in the order in which messages list them. -/
def all : List LogLevel := [.log, .error, .warn, .info]

def name : LogLevel → String
  | .log => "log"
  | .error => "error"
  | .warn => "warn"
  | .info => "info"

def ofName (s : String) : Except String LogLevel :=
  match all.find? (·.name == s) with
  | some l => .ok l
  | none => .error ("unknown console method '" ++ s ++ "'")

def toJson (l : LogLevel) : Json.Value := .text l.name

def decoder : Json.Decoder LogLevel := .oneOfNames (all.map fun l => (l.name, l))

end LogLevel

/-- One console call. -/
structure LogEntry where
  level : LogLevel
  content : String
  /-- Milliseconds since the start of 1970. -/
  timestamp : Nat
  deriving DecidableEq, Repr, Inhabited

namespace LogEntry

def toJson (e : LogEntry) : Json.Value :=
  .object [("type", e.level.toJson), ("content", .text e.content),
    ("timestamp", .number (.natural e.timestamp))]

/-- An entry whose fields are not all known yet. -/
structure Draft where
  level : Option LogLevel := none
  content : Option String := none
  timestamp : Option Nat := none

def fields : List (Json.Decoder.Field Draft) :=
  [.of "type" true LogLevel.decoder (·.level) fun x d => { d with level := some x },
    .of "content" true .text (·.content) fun x d => { d with content := some x },
    .of "timestamp" true (.natural "u64") (·.timestamp) fun x d => { d with timestamp := some x }]

def ofDraft (d : Draft) : LogEntry :=
  ⟨d.level.getD .log, d.content.getD "", d.timestamp.getD 0⟩

def decoder : Json.Decoder LogEntry := .record "struct LogEntry" fields {} ofDraft

end LogEntry
end ScriptSandbox
