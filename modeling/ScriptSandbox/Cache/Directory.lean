import ScriptSandbox.Cache.Files

/-!
# A store in a directory

The file system is a directory and the files around it. A name may have 255 bytes at most. The
empty key has no name of its own; its path is that of the directory, and the file that is written
before it may lie beside the directory.
-/

namespace ScriptSandbox

/-- What a name stands for. -/
inductive Entry where
  | file (bytes : ByteArray)
  | folder

/-- A place that a store may touch. -/
inductive Place where
  /-- The directory itself. -/
  | itself
  | inside (name : String)
  | beside (name : String)
  /-- Where nothing is and nothing can be put, such as the empty path. -/
  | nowhere
  deriving DecidableEq, Repr, Inhabited

/-- The store's directory, and what lies beside it. -/
structure Directory where
  inside : Assoc Entry := []
  beside : Assoc Entry := []

namespace Directory

/-- The longest name, in bytes. -/
def nameLimit : Nat := 255

def tooLong : Place → Bool
  | .itself | .nowhere => false
  | .inside name | .beside name => name.utf8ByteSize > nameLimit

def entry? (d : Directory) : Place → Option Entry
  | .itself => some .folder
  | .inside name => d.inside.get? name
  | .beside name => d.beside.get? name
  | .nowhere => none

def put (d : Directory) (p : Place) (bytes : ByteArray) : Directory :=
  match p with
  | .itself | .nowhere => d
  | .inside name => { d with inside := d.inside.put name (.file bytes) }
  | .beside name => { d with beside := d.beside.put name (.file bytes) }

/-- Takes away what is at a place. -/
def erase (d : Directory) (p : Place) : Directory :=
  match p with
  | .itself | .nowhere => d
  | .inside name => { d with inside := d.inside.erase name }
  | .beside name => { d with beside := d.beside.erase name }

/-- Reads a file as text; there may be none. -/
def read (d : Directory) (p : Place) : Except StoreError (Option String) :=
  if tooLong p then .error .io
  else
    match d.entry? p with
    | none => .ok none
    | some .folder => .error .io
    | some (.file bytes) =>
      match String.fromUTF8? bytes with
      | some s => .ok (some s)
      | none => .error .io

/-- Writes a file, in place of one that is there. -/
def write (d : Directory) (p : Place) (bytes : ByteArray) : Except StoreError Directory :=
  if tooLong p || p = .nowhere then .error .io
  else
    match d.entry? p with
    | some .folder => .error .io
    | _ => .ok (d.put p bytes)

/-- Moves a file, in place of one that is there. -/
def rename (d : Directory) (source target : Place) : Except StoreError Directory :=
  if tooLong source || tooLong target || target = .nowhere then .error .io
  else
    match d.entry? source, d.entry? target with
    | some (.file _), some .folder => .error .io
    | some (.file bytes), _ => .ok ((d.erase source).put target bytes)
    | _, _ => .error .io

/-- Deletes a file; there may be none. -/
def delete (d : Directory) (p : Place) : Except StoreError Directory :=
  if tooLong p then .error .io
  else
    match d.entry? p with
    | none => .ok d
    | some .folder => .error .io
    | some (.file _) => .ok (d.erase p)

/-- The names in the directory, in order. -/
def files (d : Directory) : List String := d.inside.names

/-! ## Paths and places -/

/-- The name that the components of a path end in, if they do. -/
def lastName? (components : List Path.Component) : Option String :=
  match components.getLast? with
  | some (.name chars) => some (String.ofList chars)
  | _ => none

/-- The place that a path leads to, for a directory whose path is `own`. -/
def placeAt (own path : String) : Place :=
  let home := Path.components own
  let there := Path.components path
  if path.isEmpty then .nowhere
  else if there = home then .itself
  else
    match lastName? there with
    | none => .nowhere
    | some name =>
      if there.dropLast = home then .inside name
      else if (lastName? home).isSome ∧ there.dropLast = home.dropLast then .beside name
      else .nowhere

/-- What is answered where a step fails or leaves a directory behind. -/
def outcome (d : Directory) : Except StoreError Directory → Except StoreError Unit × Directory
  | .ok changed => (.ok (), changed)
  | .error e => (.error e, d)

def fileSystem (own : String) : FileSystem Directory where
  read d path := d.read (placeAt own path)
  perform d
    | .write path bytes => d.outcome (d.write (placeAt own path) bytes)
    | .rename source target => d.outcome (d.rename (placeAt own source) (placeAt own target))
    | .delete path => d.outcome (d.delete (placeAt own path))

end Directory

/-! ## The store -/

/-- A store in a directory. -/
structure FileStore where
  /-- The path of the directory. -/
  own : String := "store"
  directory : Directory := {}

namespace FileStore

/-- Opens a store at a place of the surroundings; a file that is there stands in the way. -/
def openBeside (s : FileStore) (name : String) : Except StoreError FileStore :=
  match s.directory.beside.get? name with
  | some (.file _) => .error .io
  | _ => .ok { own := name }

/-- Opens the directory of a store again; it is there already, and stays as it is. -/
def reopen (s : FileStore) : FileStore := { own := s.own, directory := s.directory }

def perform (s : FileStore) (steps : List FileStep) : Except StoreError Unit × FileStore :=
  let done := (Directory.fileSystem s.own).performAll s.directory steps
  (done.1, { s with directory := done.2 })

end FileStore

/-- The three operations on a directory. -/
instance : KeyValueStore FileStore where
  get s k := (Directory.fileSystem s.own).read s.directory (pathOf s.own k)
  set s k v := s.perform (setSteps s.own k v)
  remove s k := s.perform (removeSteps s.own k)

end ScriptSandbox
