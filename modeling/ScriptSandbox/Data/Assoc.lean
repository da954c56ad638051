/-!
# Maps from names

A map from names is a list of pairs whose names rise strictly, so two maps with the same content
are the same list. Names are compared by code points, which is also the order of their bytes.
-/

namespace ScriptSandbox

/-- A map from names, as pairs in the order of the names. -/
abbrev Assoc (α : Type) : Type := List (String × α)

namespace Assoc

/-- Whether the names rise strictly. -/
def Sorted {α : Type} (m : Assoc α) : Prop := m.Pairwise fun a b => a.1 < b.1

def get? {α : Type} (m : Assoc α) (name : String) : Option α := m.lookup name

def has {α : Type} (m : Assoc α) (name : String) : Bool := m.any (·.1 == name)

/-- Changes what a name maps to; the name is added where it belongs if it was absent. -/
def alter {α : Type} (name : String) (f : Option α → α) : Assoc α → Assoc α
  | [] => [(name, f none)]
  | (k, a) :: rest =>
    if name < k then (name, f none) :: (k, a) :: rest
    else if name == k then (k, f (some a)) :: rest
    else (k, a) :: alter name f rest

/-- Maps a name to a value. -/
def put {α : Type} (m : Assoc α) (name : String) (a : α) : Assoc α := m.alter name fun _ => a

def erase {α : Type} (m : Assoc α) (name : String) : Assoc α := m.filter (·.1 != name)

/-- The map that pairs in any order describe; a later pair replaces an earlier one. -/
def ofPairs {α : Type} (pairs : List (String × α)) : Assoc α :=
  pairs.foldl (fun m (k, a) => m.put k a) []

def names {α : Type} (m : Assoc α) : List String := m.map (·.1)

end Assoc
end ScriptSandbox
