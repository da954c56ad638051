import ScriptSandbox.Machine.Call

/-!
# Loading and linking modules

A module is loaded together with all that it requests, in the order in which the requests stand in
the sources; one that cannot be loaded leaves no trace of those that requested it. Linking gives
every import the cell of the variable that it stands for, so that both see the same value at any
time.
-/

namespace ScriptSandbox

/-- The name of the module that a specifier means; there is none where a map has no entry. -/
def Resolution.resolve : Resolution → (base specifier : String) → Option String
  | .network r, base, s => some (r.moduleName base s)
  | .mapped map r, base, s => map.resolve r base s

namespace Exec

/-! ## Records -/

def getModule (i : Nat) : Exec ModuleRecord := do return (← get).modules.getD i default

def modifyModule (i : Nat) (f : ModuleRecord → ModuleRecord) : Exec Unit :=
  modify fun m => { m with modules := m.modules.modify i f }

def throwBare {α : Type} (k : ErrorKind) (message : String) : Exec α := do
  throwValue (← makeErrorWith k (cutMessage message) "")

/-! ## Loading -/

def loadingFailed {α : Type} (name why : String) : Exec α :=
  throwBare .referenceError ("Error loading module '" ++ name ++ "': " ++ why)

/-- The name of the module that a specifier in another module means. -/
def resolveSpecifier (base specifier : String) : Exec String := do
  match (← get).host.resolution.resolve base specifier with
  | some name => return name
  | none =>
    throwBare .referenceError ("Error resolving module '" ++ specifier ++ "' from '" ++ base
      ++ "': specifier is not in the realm's import map")

/-- The source of a module: from memory, where it is served once, or fetched. -/
def moduleSource (name : String) : Exec String := do
  let host := (← get).host
  if Specifier.isInline name then
    let (source, inline) := host.inline.take name
    modify fun m => { m with host := { m.host with inline } }
    match source with
    | some s => return s
    | none => loadingFailed name "inline module was already consumed"
  else
    modify fun m => { m with host := { m.host with requests := m.host.requests ++ [name] } }
    match host.fetch name with
    | .ok s =>
      modify fun m => { m with host := { m.host with loaded := m.host.loaded ++ [name] } }
      return s
    | .error e => loadingFailed name e.message

/-- The first place of a zero byte in a text. -/
def nulPlace? (s : String) : Option Nat :=
  let rec go : Nat → List Char → Option Nat
    | _, [] => none
    | n, c :: cs => if c == '\x00' then some n else go (n + c.utf8Size) cs
  go 0 s.toList

/-- What is said about a text with a zero byte in it. -/
def nulMessage (place : Nat) : String :=
  "String contained internal null bytes: nul byte found in provided data at position: "
    ++ toString place

/-- A module from its source, and what it requests. -/
def readModule (name source : String) : Exec (ModuleRecord × List String) := do
  match nulPlace? source with
  | some i => throwBare .typeError (nulMessage i)
  | none => pure ()
  chargeSource source
  let p ← orFault name (Language.readAsModule source)
  let (code, bindings) ← orFault name (Compile.module p name source)
  return ({ name, code, bindings, imports := p.imports, exports := p.exports, awaits := p.awaits },
    p.requests)

/-- The stack that loading a module takes. -/
def loadBytes : Nat := 2000

/-- Loads a module, with all that it requests, unless it is there already. -/
def loadModule : (fuel : Nat) → (base specifier : String) → Exec Nat
  | 0, _, _ => stackOverflow
  | fuel + 1, base, specifier => do
    let name ← resolveSpecifier base specifier
    match (← get).modules.findIdx? (·.name == name) with
    | some i => return i
    | none =>
      withStack loadBytes do
        let source ← moduleSource name
        let (r, requests) ← readModule name source
        let i := (← get).modules.size
        modify fun m => { m with modules := m.modules.push r }
        match ← attempt (requests.mapM (loadModule fuel name)) with
        | .value requested =>
          modifyModule i fun r => { r with requested }
          return i
        | .thrown e =>
          modifyModule i fun r => { r with name := "" }
          throwValue e
/-! ## Exports -/

/-- What an exported name stands for. -/
inductive ExportTarget where
  | variable (module : Nat) (name : String)
  /-- A module as a whole. -/
  | whole (module : Nat)
  deriving BEq, Inhabited

/-- The outcome of looking for an exported name. -/
inductive Export where
  | found (t : ExportTarget)
  | missing
  | circular
  | ambiguous
  deriving Inhabited

def exportedName? : Language.ExportEntry → Option String
  | .own e _ => some e
  | .from _ e _ => some e
  | .all _ => none

/-- Looks for an exported name; `seen` are the questions that have been asked before. -/
def findExport (ms : Array ModuleRecord) : (fuel : Nat) → (seen : List (Nat × String)) →
    (module : Nat) → (name : String) → Export × List (Nat × String)
  | 0, seen, _, _ => (.circular, seen)
  | fuel + 1, seen, i, name =>
    if seen.contains (i, name) then (.circular, seen)
    else
      let seen := (i, name) :: seen
      let r := ms.getD i default
      let other (k : Nat) : Nat := r.requested.getD k 0
      match r.exports.find? fun e => exportedName? e == some name with
      | some (.own _ x) => (.found (.variable i x), seen)
      | some (.from k _ "*") => (.found (.whole (other k)), seen)
      | some (.from k _ x) => findExport ms fuel seen (other k) x
      | _ =>
        if name == "default" then (.missing, seen)
        else
          let all := r.exports.filterMap fun e => match e with
            | .all k => some (other k)
            | _ => none
          all.foldl (fun (found, seen) j =>
            match found with
            | .ambiguous => (found, seen)
            | _ =>
              match findExport ms fuel seen j name with
              | (.ambiguous, seen) => (.ambiguous, seen)
              | (.found t, seen) =>
                match found with
                | .found u => (if t == u then found else .ambiguous, seen)
                | _ => (.found t, seen)
              | (_, seen) => (found, seen)) (.missing, seen)

def exportLimit : Nat := 1000

def exportOf (i : Nat) (name : String) : Exec Export := do
  return (findExport (← get).modules exportLimit [] i name).1

def exportFailed {α : Type} (found : Export) (name module : String) : Exec α :=
  raise .syntaxError <|
    match found with
    | .ambiguous => "export '" ++ name ++ "' in module '" ++ module ++ "' is ambiguous"
    | .circular =>
      "circular reference when looking for export '" ++ name ++ "' in module '" ++ module ++ "'"
    | _ => "Could not find export '" ++ name ++ "' in module '" ++ module ++ "'"

def exportedNames (ms : Array ModuleRecord) : (fuel : Nat) → (seen : List Nat) → Nat →
    List String × List Nat
  | 0, seen, _ => ([], seen)
  | fuel + 1, seen, i =>
    if seen.contains i then ([], seen)
    else
      let r := ms.getD i default
      let own := r.exports.filterMap exportedName?
      r.exports.foldl (fun (names, seen) e =>
        match e with
        | .all k =>
          let (more, seen) := exportedNames ms fuel seen (r.requested.getD k 0)
          (names ++ more.filter fun x => x != "default" && !names.contains x, seen)
        | _ => (names, seen)) (own, i :: seen)

def variableCell (r : ModuleRecord) (name : String) : Nat :=
  match r.bindings.find? fun v => v.name == name with
  | some v => r.cells.getD v.cell 0
  | none => 0

def namespaceEntries (i : Nat) : List String → Exec (List (Key × Binding) × List Nat)
  | [] => return ([], [])
  | x :: xs => do
    let b ← match ← exportOf i x with
      | .found (.variable j name) =>
        pure (some (Binding.cell (variableCell (← getModule j) name), none))
      | .found (.whole j) => pure (some (.whole j, some j))
      | .ambiguous => pure none
      | found => do exportFailed found x (← getModule i).name
    let (entries, wholes) ← namespaceEntries i xs
    match b with
    | some (b, j) => return ((Key.ofString x, b) :: entries, j.toList ++ wholes)
    | none => return (entries, wholes)

/-- The namespace of a module, with those of the modules that it exports as a whole. -/
def namespaceOf : (fuel : Nat) → (i : Nat) → Exec Nat
  | 0, _ => stackOverflow
  | fuel + 1, i => do
    match (← getModule i).namespaceObject with
    | some a => return a
    | none =>
      let names := (exportedNames (← get).modules exportLimit [] i).1
      let names := names.mergeSort fun a b => a ≤ b
      let (entries, wholes) ← namespaceEntries i names
      let a ← alloc
        { extensible := false
          kind := .namespace entries
          props := .ofList
            [(KnownSymbol.toStringTag.key, .data (.ofString "Module") false false false)] }
      modifyModule i fun r => { r with namespaceObject := some a }
      for j in wholes do
        let _ ← namespaceOf fuel j
      return a

def moduleNamespace (i : Nat) : Exec Nat := namespaceOf exportLimit i

/-! ## Linking -/

/-- Gives a module and those that it requests their functions and variables. -/
def prepareModule : (fuel : Nat) → Nat → Exec Unit
  | 0, _ => return
  | fuel + 1, i => do
    let r ← getModule i
    if r.function.isNone then
      let f ← newClosure r.code #[] none none
      let cells ← r.bindings.foldlM (fun (cells : Array Nat) v => do
        let c ← newCell (if v.lexical then .hole else .undefined)
        return cells.setIfInBounds v.cell c) (Array.replicate r.code.cells 0)
      modifyModule i fun r => { r with function := some f, cells }
      r.requested.forM (prepareModule fuel)

def importedCell (r : ModuleRecord) (e : Language.ImportEntry) : Exec Nat := do
  let j := r.requested.getD e.request 0
  if e.imported == "*" then newCell (.obj (← moduleNamespace j))
  else
    match ← exportOf j e.imported with
    | .found (.variable k name) => return variableCell (← getModule k) name
    | .found (.whole k) => newCell (.obj (← moduleNamespace k))
    | found => exportFailed found e.imported (← getModule j).name

/-- Fails if a name that a module passes on is not there. -/
def checkIndirect (r : ModuleRecord) (e : Language.ExportEntry) : Exec Unit := do
  match e with
  | .from k exported imported =>
    if imported != "*" then
      match ← exportOf (r.requested.getD k 0) imported with
      | .found _ => return
      | found => exportFailed found exported r.name
  | _ => return

/-- Runs a module up to its first statement, so that its functions are there. -/
def hoistModule (i : Nat) : Exec Unit := do
  let r ← getModule i
  countCall #[]
  let fr : Frame :=
    { code := r.code
      locals := Array.replicate r.code.locals .undefined
      cells := r.cells
      callee := r.function.getD 0 }
  match ← enter fr with
  | .started fr => modifyModule i fun r => { r with frame := some fr }
  | _ => return

def linkInner : (fuel : Nat) → Nat → Exec Unit
  | 0, _ => stackOverflow
  | fuel + 1, i => do
    let r ← getModule i
    match r.status with
    | .unlinked =>
      modifyModule i fun r => { r with status := .linking }
      r.requested.forM (linkInner fuel)
      r.exports.forM (checkIndirect r)
      for e in r.imports do
        let c ← importedCell r e
        match r.bindings.find? fun v => v.name == e.name with
        | some v => modifyModule i fun r => { r with cells := r.cells.setIfInBounds v.cell c }
        | none => pure ()
      hoistModule i
      modifyModule i fun r => { r with status := .linked }
    | _ => return

/-- Links a module; if that fails, all that had not been linked can be tried again. -/
def linkModule (i : Nat) : Exec Unit := do
  prepareModule exportLimit i
  match ← attempt (linkInner exportLimit i) with
  | .value _ => return
  | .thrown e =>
    modify fun m => { m with modules := m.modules.map fun r =>
      match r.status with
      | .linking => { r with status := .unlinked }
      | _ => r }
    throwValue e

end Exec
end ScriptSandbox
