import ScriptSandbox.Data.Assoc
import ScriptSandbox.Settings
import ScriptSandbox.Modules.Specifier

/-!
# Fetching module sources

A fetcher gives the source of a module by its URL. A `ModuleTable` serves a fixed set of modules.
Over the network, a URL has to be one of the web, and the answer has to be a success and no larger
than the settings allow; what the network itself does is a parameter.
-/

namespace ScriptSandbox

/-- Why there is no source. -/
inductive FetchError where
  | request (why : String)
  | status (code : Nat) (url : String)
  | invalidUrl (url : String)
  | tooLarge (size max : Nat)
  | notFound (url : String)
  | noRuntime
  deriving DecidableEq, Repr, Inhabited

/-- The words for a failure. -/
def FetchError.message : FetchError → String
  | .request why => "HTTP request failed: " ++ why
  | .status code url => "HTTP " ++ toString code ++ " for URL: " ++ url
  | .invalidUrl url => "invalid module URL: " ++ url
  | .tooLarge size max =>
    "module too large: " ++ toString size ++ " bytes (max: " ++ toString max ++ ")"
  | .notFound url => "no module registered for " ++ url
  | .noRuntime => "no tokio runtime available to drive HTTP fetches"

/-- Gives the source of a module by its URL. -/
abbrev Fetch : Type := String → Except FetchError String

/-- A fixed set of modules by URL. -/
abbrev ModuleTable : Type := Assoc String

def ModuleTable.fetch (table : ModuleTable) : Fetch := fun url =>
  match table.get? url with
  | some source => .ok source
  | none => .error (.notFound url)

/-- What the network answers to a request. -/
structure Response where
  status : Nat
  /-- The size announced before the body. -/
  announced : Option Nat
  size : Nat
  body : String

/-- The source in an answer, unless the answer is no success or too large. -/
def Response.accept (url : String) (max : Nat) (r : Response) : Except FetchError String :=
  if r.status < 200 || r.status ≥ 300 then .error (.status r.status url)
  else
    match r.announced.filter (· > max) with
    | some size => .error (.tooLarge size max)
    | none => if r.size > max then .error (.tooLarge r.size max) else .ok r.body

def fetchOver (network : String → Except String Response) (s : ModuleSettings) : Fetch := fun url =>
  if !Specifier.isAbsoluteUrl url then .error (.invalidUrl url)
  else
    match network url with
    | .ok r => r.accept url s.maxModuleSize
    | .error why => .error (.request why)

/-- What serves modules, and what it was asked for. -/
structure Provider where
  fetch : Fetch
  /-- The URLs that were asked for, in order. -/
  requests : List String := []
  deriving Inhabited

end ScriptSandbox
