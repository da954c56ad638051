/-!
# Paths

A path is a text with slashes between its pieces. A piece that is empty or a single dot stands for
nothing, unless the path begins with it; two dots stand for the parent; any other piece is a name. To
join a path with another one is to write it behind, and to give a path an extension is to change its
last name, at the end of which the path is cut off. What a path leads to is not looked up.
-/

namespace ScriptSandbox.Path

/-- A part of a path that stands for something. -/
inductive Component where
  | root
  | here
  | parent
  | name (chars : List Char)
  deriving DecidableEq, Repr

/-- The texts between the slashes. -/
def pieces (path : String) : List (List Char) := path.toList.splitOn '/'

/-- What a piece stands for; an empty one and a dot stand for nothing. -/
def component? : List Char → Option Component
  | [] | ['.'] => none
  | ['.', '.'] => some .parent
  | chars => some (.name chars)

/-- What a path stands for by the way it begins. -/
def start (ps : List (List Char)) : List Component :=
  if ps.head? = some [] ∧ 1 < ps.length then [.root]
  else if ps.head? = some ['.'] then [.here]
  else []

/-- The components of a path, by its pieces. -/
def componentsOf (ps : List (List Char)) : List Component := start ps ++ ps.filterMap component?

def components (path : String) : List Component := componentsOf (pieces path)

/-- Whether the next piece can follow a path as it is. -/
def isOpen (path : String) : Bool := path.toList.getLast?.all (· = '/')

/-- A path behind another one; one that begins at the root stands for itself. -/
def join (path next : String) : String :=
  if next.toList.head? = some '/' then next
  else if isOpen path then path ++ next
  else path ++ "/" ++ next

/-- A name without its extension: what is before its last dot, unless that is where it begins. -/
def stem (name : List Char) : List Char :=
  match name.reverse.dropWhile (· ≠ '.') with
  | [] | [_] => name
  | _ :: before => before.reverse

/-- A path whose last name has another extension; a path without one stays as it is. -/
def withExtension (path extension : String) : String :=
  match (pieces path).reverse.dropWhile fun p => (component? p).isNone with
  | [] => path
  | last :: before =>
    if last = ['.', '.'] then path
    else
      let behind := if extension.isEmpty then [] else '.' :: extension.toList
      String.ofList (['/'].intercalate (before.reverse ++ [stem last ++ behind]))

end ScriptSandbox.Path
