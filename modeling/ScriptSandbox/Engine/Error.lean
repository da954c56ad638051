import ScriptSandbox.Duration

/-!
# Failures of an engine

An engine fails on the host's side only: what the guest does wrong is part of its outcome. After a
fatal failure the engine should be disposed of and made ready again before further use.
-/

namespace ScriptSandbox

/-- Why an engine gave no outcome. -/
inductive EngineError where
  | initialization (why : String)
  | notReady
  | protocolTimeout (limit : Duration)
  | realmClosed
  | crashed (why : String)
  deriving DecidableEq, Repr, Inhabited

namespace EngineError

/-- The words for a failure. -/
def message : EngineError → String
  | .initialization why => "engine failed to initialize: " ++ why
  | .notReady => "engine is not ready; call initialize() first"
  | .protocolTimeout limit => "realm did not respond within " ++ limit.text
  | .realmClosed => "realm closed its channel before responding"
  | .crashed why => "execution task crashed: " ++ why

/-- Whether the engine should be made ready again before further use. -/
def isFatal : EngineError → Bool
  | .protocolTimeout _ | .realmClosed | .crashed _ => true
  | .initialization _ | .notReady => false

end EngineError
end ScriptSandbox
