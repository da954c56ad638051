import ScriptSandbox.Machine.Call

/-!
# Members of library objects

The objects of the standard library are written down as lists of members, from which they are made
before guest code runs.
-/

namespace ScriptSandbox.Library

/-- What a member of a library object is. -/
inductive MemberKind where
  /-- A function with so many parameters; `place` is where it lies, if the machine has to know. -/
  | function (f : Builtin) (arity : Nat) (place : Option Nat)
  | accessor (get set : Option Builtin)
  /-- A value that cannot be changed. -/
  | constant (v : Value)
  /-- A value that can be replaced, or not. -/
  | value (v : Value) (writable configurable : Bool)
  /-- The same function as another member. -/
  | sameAs (other : Key)

/-- A member of a library object. -/
structure Member where
  key : Key
  /-- The name that a function is given. -/
  name : String
  kind : MemberKind

def method (name : String) (f : Builtin) (arity : Nat) : Member :=
  ⟨.named name, name, .function f arity none⟩

def knownMethod (name : String) (f : Builtin) (arity : Nat) (place : Intrinsic) : Member :=
  ⟨.named name, name, .function f arity (some place.address)⟩

def symbolMethod (s : KnownSymbol) (name : String) (f : Builtin) (arity : Nat) : Member :=
  ⟨s.key, name, .function f arity none⟩

/-- A property that is computed. -/
def getter (name : String) (f : Builtin) : Member := ⟨.named name, name, .accessor (some f) none⟩

/-- A property with a symbol for its key that is computed. -/
def symbolGetter (s : KnownSymbol) (name : String) (f : Builtin) : Member :=
  ⟨s.key, name, .accessor (some f) none⟩

/-- The property that says which constructor methods use for what they make. -/
def species (f : Builtin) : Member := symbolGetter .species "[Symbol.species]" f

/-- Another name for a method. -/
def sameAs (k : Key) (other : String) : Member := ⟨k, "", .sameAs (.named other)⟩

def constant (name : String) (v : Value) : Member := ⟨.named name, name, .constant v⟩

def hidden (name : String) (v : Value) : Member := ⟨.named name, name, .value v true true⟩

/-- What an object calls itself. -/
def tag (name : String) : Member :=
  ⟨KnownSymbol.toStringTag.key, "", .value (.ofString name) false true⟩

end ScriptSandbox.Library
