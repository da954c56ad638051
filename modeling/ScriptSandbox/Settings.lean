import ScriptSandbox.Json.Decoder
import ScriptSandbox.Duration

/-!
# Settings

One section for each part of the program. A settings text overlays the defaults: any section and
any field may be absent, in any order, and members with other names are passed over. All sizes and
times are natural numbers below `2^64`.
-/

namespace ScriptSandbox

/-- The content network that serves bare package names unless another is set. -/
def defaultCdnRoot : String := "https://esm.sh"

/-- Bounds of the interpreter that runs one call. -/
structure InterpreterSettings where
  /-- Bytes of heap. -/
  memoryLimit : Nat := 655360
  /-- Bytes of stack. -/
  maxStackSize : Nat := 327680
  /-- Polls of the interrupt handler before the guest is stopped. -/
  interruptBudget : Nat := 1024
  deriving DecidableEq, Repr, Inhabited

/-- Bounds of a realm and of the waits for it. -/
structure RealmSettings where
  responseTimeoutMs : Nat := 30000
  readyTimeoutMs : Nat := 3000
  memoryLimit : Nat := 67108864
  maxStackSize : Nat := 1048576
  deriving DecidableEq, Repr, Inhabited

/-- Where modules come from. -/
structure ModuleSettings where
  cdnRoot : String := defaultCdnRoot
  fetchTimeoutMs : Nat := 15000
  /-- Bytes of the largest module body that is accepted. -/
  maxModuleSize : Nat := 8388608
  deriving DecidableEq, Repr, Inhabited

/-- Bounds of the code cache and the names of its keys. -/
structure CacheSettings where
  capacity : Nat := 100
  keyPrefix : String := "jsbox-code"
  deriving DecidableEq, Repr, Inhabited

/-- All sections. -/
structure Settings where
  interpreter : InterpreterSettings := {}
  realm : RealmSettings := {}
  modules : ModuleSettings := {}
  cache : CacheSettings := {}
  deriving DecidableEq, Repr, Inhabited

/-- How long a request to a realm may take. -/
def RealmSettings.responseTimeout (s : RealmSettings) : Duration := .ofMillis s.responseTimeoutMs

/-- How long a realm may take to become ready. -/
def RealmSettings.readyTimeout (s : RealmSettings) : Duration := .ofMillis s.readyTimeoutMs

/-- How long a fetch may take. -/
def ModuleSettings.fetchTimeout (s : ModuleSettings) : Duration := .ofMillis s.fetchTimeoutMs

/-! ## Writing -/

private def num (n : Nat) : Json.Value := .number (.natural n)

/-- The section as an object. -/
def InterpreterSettings.toJson (s : InterpreterSettings) : Json.Value :=
  .object [("memory_limit", num s.memoryLimit), ("max_stack_size", num s.maxStackSize),
    ("interrupt_budget", num s.interruptBudget)]

/-- The section as an object. -/
def RealmSettings.toJson (s : RealmSettings) : Json.Value :=
  .object [("response_timeout_ms", num s.responseTimeoutMs),
    ("ready_timeout_ms", num s.readyTimeoutMs), ("memory_limit", num s.memoryLimit),
    ("max_stack_size", num s.maxStackSize)]

/-- The section as an object. -/
def ModuleSettings.toJson (s : ModuleSettings) : Json.Value :=
  .object [("cdn_root", .text s.cdnRoot), ("fetch_timeout_ms", num s.fetchTimeoutMs),
    ("max_module_size", num s.maxModuleSize)]

/-- The section as an object. -/
def CacheSettings.toJson (s : CacheSettings) : Json.Value :=
  .object [("capacity", num s.capacity), ("key_prefix", .text s.keyPrefix)]

/-- All sections as one object. -/
def Settings.toJson (s : Settings) : Json.Value :=
  .object [("interpreter", s.interpreter.toJson), ("realm", s.realm.toJson),
    ("modules", s.modules.toJson), ("cache", s.cache.toJson)]

/-! ## Reading

A draft pairs a section with the names of the fields that were given, so that a field that is
absent keeps its default and a field given twice is noticed. -/

/-- A section under construction and the names of the fields given so far. -/
structure Overlay (α : Type) where
  value : α
  names : List String := []

/-- A field of a section: it may be absent. -/
def overlayField {α β : Type} (name : String) (d : Json.Decoder β) (put : β → α → α) :
    Json.Decoder.Field (Overlay α) where
  name := name
  required := false
  given o := o.names.contains name
  value := d.map fun b o => ⟨put b o.value, name :: o.names⟩

def overlay {α : Type} (title : String) (default : α)
    (fields : List (Json.Decoder.Field (Overlay α))) : Json.Decoder α :=
  .record title fields ⟨default, []⟩ (·.value)

/-- Reads the section. -/
def InterpreterSettings.decoder : Json.Decoder InterpreterSettings :=
  overlay "struct InterpreterSettings" {}
    [overlayField "memory_limit" (.natural "usize") fun x s => { s with memoryLimit := x },
      overlayField "max_stack_size" (.natural "usize") fun x s => { s with maxStackSize := x },
      overlayField "interrupt_budget" (.natural "u64") fun x s => { s with interruptBudget := x }]

/-- Reads the section. -/
def RealmSettings.decoder : Json.Decoder RealmSettings :=
  overlay "struct RealmSettings" {}
    [overlayField "response_timeout_ms" (.natural "u64")
        fun x s => { s with responseTimeoutMs := x },
      overlayField "ready_timeout_ms" (.natural "u64") fun x s => { s with readyTimeoutMs := x },
      overlayField "memory_limit" (.natural "usize") fun x s => { s with memoryLimit := x },
      overlayField "max_stack_size" (.natural "usize") fun x s => { s with maxStackSize := x }]

/-- Reads the section. -/
def ModuleSettings.decoder : Json.Decoder ModuleSettings :=
  overlay "struct ModuleSettings" {}
    [overlayField "cdn_root" .text fun x s => { s with cdnRoot := x },
      overlayField "fetch_timeout_ms" (.natural "u64") fun x s => { s with fetchTimeoutMs := x },
      overlayField "max_module_size" (.natural "u64") fun x s => { s with maxModuleSize := x }]

/-- Reads the section. -/
def CacheSettings.decoder : Json.Decoder CacheSettings :=
  overlay "struct CacheSettings" {}
    [overlayField "capacity" (.natural "usize") fun x s => { s with capacity := x },
      overlayField "key_prefix" .text fun x s => { s with keyPrefix := x }]

/-- Reads all sections. -/
def Settings.decoder : Json.Decoder Settings :=
  overlay "struct Settings" {}
    [overlayField "interpreter" InterpreterSettings.decoder fun x s => { s with interpreter := x },
      overlayField "realm" RealmSettings.decoder fun x s => { s with realm := x },
      overlayField "modules" ModuleSettings.decoder fun x s => { s with modules := x },
      overlayField "cache" CacheSettings.decoder fun x s => { s with cache := x }]

/-- Why settings could not be had. -/
inductive SettingsError where
  /-- The file could not be read. -/
  | unreadable
  | badJson (fault : Json.Fault)

/-- The words for a fault of a settings text. -/
def SettingsError.message : SettingsError → String
  | .unreadable => "failed to read settings file"
  | .badJson fault => "invalid settings JSON: " ++ fault.message

def Settings.ofText (s : String) : Except SettingsError Settings :=
  match Settings.decoder.run s with
  | .ok settings => .ok settings
  | .error fault => .error (.badJson fault)

/-- Reads a settings file, given its content if it can be read. -/
def Settings.ofFile (content : Option String) : Except SettingsError Settings :=
  match content with
  | none => .error .unreadable
  | some s => Settings.ofText s

end ScriptSandbox
