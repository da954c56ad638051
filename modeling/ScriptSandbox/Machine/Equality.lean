import ScriptSandbox.Machine.Value

/-!
# Equality of values

Three equalities of values that look at nothing but the values: `strictEq` is that of the guest
language, in which a number that is none differs from itself; `sameValue` tells apart exactly what
guest code can tell apart; `sameValueZero` differs from it in taking both zeros for the same.
-/

namespace ScriptSandbox.Value

/-- A number as a double, if the value is one. -/
def float? : Value → Option Float
  | .int n => some (Numeral.ofInt n)
  | .num x => some x
  | _ => none

/-- Equality of values other than numbers. -/
def sameOther : Value → Value → Bool
  | .undefined, .undefined | .null, .null | .hole, .hole => true
  | .bool a, .bool b => a == b
  | .str a, .str b => a == b
  | .sym a, .sym b => a == b
  | .big a, .big b => a == b
  | .obj a, .obj b => a == b
  | _, _ => false

/-- The strict equality of the guest language. -/
def strictEq (a b : Value) : Bool :=
  match a, b with
  | .int m, .int n => m == n
  | a, b =>
    match a.float?, b.float? with
    | some x, some y => x == y
    | none, none => sameOther a b
    | _, _ => false

def sameValue (a b : Value) : Bool :=
  match a.float?, b.float? with
  | some x, some y => x.toBits == y.toBits || (x.isNaN && y.isNaN)
  | none, none => sameOther a b
  | _, _ => false

def sameValueZero (a b : Value) : Bool :=
  match a.float?, b.float? with
  | some x, some y => x == y || (x.isNaN && y.isNaN)
  | none, none => sameOther a b
  | _, _ => false

def truthy : Value → Bool
  | .undefined | .null | .hole => false
  | .bool b => b
  | .int n => n != 0
  | .num x => !(x == 0.0 || x.isNaN)
  | .str s => s.length != 0
  | .big n => n != 0
  | .sym _ | .obj _ => true

end ScriptSandbox.Value
