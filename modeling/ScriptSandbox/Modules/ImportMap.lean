import ScriptSandbox.Data.Assoc
import ScriptSandbox.Json.Decoder
import ScriptSandbox.Modules.Specifier
import ScriptSandbox.Scan.Imports

/-!
# Import maps

An import map gives URLs to bare specifiers. An entry whose name ends in a slash stands for every
specifier that begins with it. A map only grows: an entry, once made, is never replaced.
-/

namespace ScriptSandbox

/-- URLs by specifier. -/
structure ImportMap where
  imports : Assoc String := []
  deriving DecidableEq, Repr, Inhabited

namespace ImportMap

/-- How many entries there are. -/
def size (m : ImportMap) : Nat := m.imports.length

/-- Whether there is no entry. -/
def isEmpty (m : ImportMap) : Bool := m.imports.isEmpty

/-- The URL of an entry. -/
def get? (m : ImportMap) (specifier : String) : Option String := m.imports.get? specifier

/-- Adds an entry unless there is one of that name; tells whether the map grew. -/
def insert (m : ImportMap) (specifier url : String) : Bool × ImportMap :=
  if m.imports.has specifier then (false, m) else (true, ⟨m.imports.put specifier url⟩)

/-- Adds what a bare specifier needs: itself, its package, and the package with a slash for the
paths into it. Tells whether the map grew. -/
def addSpecifier (m : ImportMap) (specifier : String) (r : Resolver) : Bool × ImportMap :=
  if !Specifier.isBare specifier then (false, m)
  else
    let (grew, m) := m.insert specifier (r.resolve specifier)
    match Specifier.packageBase specifier with
    | none => (grew, m)
    | some base =>
      let url := r.resolve base
      let (grew₁, m) := m.insert (base ++ "/") (url ++ "/")
      let (grew₂, m) := m.insert base url
      (grew || grew₁ || grew₂, m)

def addSpecifiers (m : ImportMap) (r : Resolver) : List String → Bool × ImportMap
  | [] => (false, m)
  | s :: ss =>
    let (grew, m) := m.addSpecifier s r
    let (grew₁, m) := m.addSpecifiers r ss
    (grew || grew₁, m)

/-- Adds what the specifiers in a source need; tells whether the map grew. -/
def mergeFromSource (m : ImportMap) (source : String) (r : Resolver) : Bool × ImportMap :=
  m.addSpecifiers r (Scan.scanImports source)

/-- Whether an entry stands for the specifiers that begin with its name, and for this one. -/
def covers (entry specifier : String) : Bool :=
  entry.toList.getLast? == some '/' && Specifier.startsWith specifier entry

/-- The entry with the longest name among some; the last of them if there are several. -/
def longest : List (String × String) → Option (String × String)
  | [] => none
  | e :: es =>
    match longest es with
    | none => some e
    | some e' => if e.1.utf8ByteSize > e'.1.utf8ByteSize then some e else some e'

/-- The URL of a specifier: that of its entry, or else that of the longest entry that covers it,
followed by the rest of the specifier. -/
def lookup (m : ImportMap) (specifier : String) : Option String :=
  match m.get? specifier with
  | some url => some url
  | none =>
    (longest (m.imports.filter fun e => covers e.1 specifier)).map fun (name, url) =>
      url ++ String.ofList (specifier.toList.drop name.length)

/-- The URL of a specifier that the module at `base` holds: only bare ones are looked up. -/
def resolve (m : ImportMap) (r : Resolver) (base specifier : String) : Option String :=
  if Specifier.isInline specifier || Specifier.isAbsoluteUrl specifier then some specifier
  else if Specifier.isBare specifier then m.lookup specifier
  else some (r.resolveFrom base specifier)

/-- A map as an object with one member, `imports`. -/
def toJson (m : ImportMap) : Json.Value :=
  .object [("imports", .object (m.imports.map fun (k, url) => (k, .text url)))]

def decoder : Json.Decoder ImportMap :=
  .record "struct ImportMap"
    [.of "imports" true (.members .text) id fun pairs _ => some pairs] none
    fun d => ⟨.ofPairs (d.getD [])⟩

end ImportMap
end ScriptSandbox
