import ScriptSandbox.Cache.Store
import ScriptSandbox.Data.Path

/-!
# Keys as files

Each key has a file in a directory, named by the bytes of the key in hexadecimal, so that every key
is a name. A value is written to a file beside it, with the ending `.tmp`, which then takes the place
of the key's own file: a value is never there in part.

What a store asks of the file system is to read one path, and to perform a few steps in order until
one of them fails. The file system itself is a parameter.
-/

namespace ScriptSandbox

/-- A step that changes files. -/
inductive FileStep where
  | write (path : String) (bytes : ByteArray)
  | rename (source target : String)
  | delete (path : String)

def FileStep.paths : FileStep → List String
  | .write path _ => [path]
  | .rename source target => [source, target]
  | .delete path => [path]

/-- A file system: what it reads at a path, where there may be no file, and what a step comes to.
Deleting where there is no file is no failure. -/
structure FileSystem (φ : Type) where
  read : φ → String → Except StoreError (Option String)
  perform : φ → FileStep → Except StoreError Unit × φ

/-- Performs steps up to the first that fails. -/
def FileSystem.performAll {φ : Type} (fs : FileSystem φ) (d : φ) :
    List FileStep → Except StoreError Unit × φ
  | [] => (.ok (), d)
  | step :: steps =>
    match fs.perform d step with
    | (.ok (), d) => fs.performAll d steps
    | (.error e, d) => (.error e, d)

/-! ## Keys -/

/-- A byte as two hexadecimal digits. -/
def hexByte (b : UInt8) : List Char := [Nat.digitChar (b.toNat / 16), Nat.digitChar (b.toNat % 16)]

def fileName (key : String) : String := String.ofList (key.toUTF8.toList.flatMap hexByte)

/-- The path of a key's value; `own` is the path of the directory. -/
def pathOf (own key : String) : String := Path.join own (fileName key)

/-- The path to which a value is written first. -/
def stagingPath (own key : String) : String := Path.withExtension (pathOf own key) "tmp"

/-- How a value is kept: it is written and then renamed, so that a reader never sees it in part. -/
def setSteps (own key value : String) : List FileStep :=
  [.write (stagingPath own key) value.toUTF8, .rename (stagingPath own key) (pathOf own key)]

def removeSteps (own key : String) : List FileStep := [.delete (pathOf own key)]

end ScriptSandbox
