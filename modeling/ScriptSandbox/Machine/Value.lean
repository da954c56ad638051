import ScriptSandbox.Machine.Numeral

/-!
# Values of guest code

A number is held as a whole number of 32 bits where it is one, and as a double otherwise; which of
the two forms holds it is not visible to guest code, except that minus zero is always a double.
Objects live in a heap and are named by their address there; symbols are numbered.
-/

namespace ScriptSandbox

/-- A value of guest code. -/
inductive Value where
  | undefined
  | null
  | bool (b : Bool)
  /-- A whole number of 32 bits with its sign. -/
  | int (n : Int)
  | num (x : Float)
  | str (s : Str)
  | sym (id : Nat)
  | big (n : Int)
  | obj (address : Nat)
  /-- No value: a variable before its declaration, or an element that is not there. -/
  | hole
  deriving Inhabited

namespace Value

def ofString (s : String) : Value := .str (Str.ofString s)

/-- The least whole number that is held as such. -/
def minInt : Int := -2147483648

/-- The greatest whole number that is held as such. -/
def maxInt : Int := 2147483647

def ofInt (n : Int) : Value := if minInt ≤ n && n ≤ maxInt then .int n else .num (Numeral.ofInt n)

def ofNat (n : Nat) : Value := ofInt n

/-- A double as a value: as a whole number where it is one of 32 bits. -/
def ofFloat (x : Float) : Value :=
  let n := x.toInt32
  if Float.ofInt n.toInt == x && !(n == 0 && Numeral.signed x) then .int n.toInt else .num x

def isNullish : Value → Bool
  | .undefined | .null => true
  | _ => false

def isUndefined : Value → Bool
  | .undefined => true
  | _ => false

def isHole : Value → Bool
  | .hole => true
  | _ => false

def isObject : Value → Bool
  | .obj _ => true
  | _ => false

def address? : Value → Option Nat
  | .obj a => some a
  | _ => none

end Value

/-- The name of a property. -/
inductive Key where
  /-- A whole number below `2^32 - 1`, in its usual form. -/
  | index (n : Nat)
  | name (s : Str)
  | symbol (id : Nat)
  /-- A private name. -/
  | hidden (id : Nat)
  deriving BEq, Hashable, Inhabited

namespace Key

/-- The greatest number that is an index, and one more. -/
def indexLimit : Nat := 4294967295

/-- The index that a text names, if it is in its usual form. -/
def index? (s : String) : Option Nat :=
  if s.utf8ByteSize == 0 || s.utf8ByteSize > 10 then none
  else
    let rec go (n : Nat) : List Char → Option Nat
      | [] => some n
      | c :: cs => if '0' ≤ c && c ≤ '9' then go (n * 10 + (c.toNat - 48)) cs else none
    match s.toList with
    | '0' :: _ :: _ => none
    | cs => (go 0 cs).bind fun n => if n < indexLimit then some n else none

def ofStr (s : Str) : Key :=
  match s with
  | .plain t _ =>
    match index? t with
    | some n => .index n
    | none => .name s
  | .units _ => .name s

/-- A text that is no number as a name. -/
def named (s : String) : Key := .name (Str.ofString s)

/-- A text as a name. -/
def ofString (s : String) : Key := ofStr (Str.ofString s)

/-- A natural number as a name. -/
def ofNat (n : Nat) : Key := if n < indexLimit then .index n else named (toString n)

def str? : Key → Option Str
  | .index n => some (Str.ofString (toString n))
  | .name s => some s
  | .symbol _ | .hidden _ => none

def value : Key → Value
  | .index n => .str (Str.ofString (toString n))
  | .name s => .str s
  | .symbol i | .hidden i => .sym i

def isSymbol : Key → Bool
  | .symbol _ => true
  | _ => false

end Key
end ScriptSandbox
