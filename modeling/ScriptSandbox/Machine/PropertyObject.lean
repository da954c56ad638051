import ScriptSandbox.Machine.Set

/-!
# Properties as objects

Guest code sees what makes a property what it is as an object, and says in the same form what a
property is to become.
-/

namespace ScriptSandbox.Exec

/-- What makes a property what it is, as an object. -/
def describeProperty (p : Property) : Exec Value := do
  let flags (e c : Bool) : List (Key × Property) :=
    [(.named "enumerable", .plain (.bool e)), (.named "configurable", .plain (.bool c))]
  let entries :=
    match p with
    | .data v w e c =>
      [(.named "value", .plain v), (.named "writable", .plain (.bool w))] ++ flags e c
    | .accessor g s e c => [(.named "get", .plain g), (.named "set", .plain s)] ++ flags e c
  newObjectOf .objectPrototype .plain entries

/-- A change as an object; what is absent is left out. -/
def describeChange (d : Descriptor) : Exec Value := do
  let entry (name : String) (v : Option Value) : List (Key × Property) :=
    v.toList.map fun v => (.named name, .plain v)
  newObjectOf .objectPrototype .plain
    (entry "value" d.value ++ entry "writable" (d.writable.map .bool) ++ entry "get" d.get
      ++ entry "set" d.set ++ entry "enumerable" (d.enumerable.map .bool)
      ++ entry "configurable" (d.configurable.map .bool))

/-- What an object says that a property is to become. -/
def readChange (v : Value) : Exec Descriptor := do
  let a ← needObject v
  let field (name : String) : Exec (Option Value) := do
    if ← hasProperty a (.named name) then some <$> getProp a (.named name) else return none
  let flag (name : String) : Exec (Option Bool) := do return (← field name).map Value.truthy
  let function (name why : String) : Exec (Option Value) := do
    match ← field name with
    | none => return none
    | some f =>
      if !f.isUndefined && !(← isCallable f) then typeError why
      return some f
  let enumerable ← flag "enumerable"
  let configurable ← flag "configurable"
  let value ← field "value"
  let writable ← flag "writable"
  let get ← function "get" "invalid getter"
  let set ← function "set" "invalid setter"
  let d : Descriptor := { value, get, set, writable, enumerable, configurable }
  if d.isAccessor && d.isData then typeError "cannot have setter/getter and value or writable"
  return d

end ScriptSandbox.Exec
