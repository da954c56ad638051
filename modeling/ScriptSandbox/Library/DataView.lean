import ScriptSandbox.Library.Buffer

/-!
# Data views

A data view reads and writes numbers of any kind anywhere among the bytes of a buffer, in either
order of bytes.
-/

namespace ScriptSandbox.Library

open Exec

/-- A data view, with what it shows. -/
structure DataView where
  buffer : Nat
  offset : Nat
  length : Nat

def thisDataView (v : Value) : Exec DataView := do
  match v with
  | .obj a =>
    match (← getObj a).kind with
    | .dataView buffer offset length => return ⟨buffer, offset, length⟩
    | _ => typeError "DataView object expected"
  | _ => typeError "DataView object expected"

def constructDataView (c : NativeCall) : Exec Value := do
  if !c.constructs then typeError "must be called with new"
  let size := (← thisBuffer (c.arg 0)).size
  let offset ← toPlace (c.arg 1) "invalid array index"
  if offset > size then rangeError "invalid byteOffset"
  let length ←
    if (c.arg 2).isUndefined then pure (size - offset)
    else toPlace (c.arg 2) "invalid array index"
  if offset + length > size then rangeError "invalid byteLength"
  let proto ← prototypeFor c.newTarget .dataViewPrototype
  match c.arg 0 with
  | .obj b => return .obj (← alloc { proto := some proto, kind := .dataView b offset length })
  | _ => return .undefined

def readData (kind : Nat) (c : NativeCall) : Exec Value := do
  let w ← thisDataView c.this
  let place ← toPlace (c.arg 0) "invalid array index"
  let size := View.elementSize kind
  if place + size > w.length then rangeError "out of bound"
  let bits := View.readBits (← thisBuffer (.obj w.buffer)) (w.offset + place) size
  return View.ofBits kind (if (c.arg 1).truthy then bits else View.reverseBytes bits size)

/-- Writes a number of a kind at a place of a data view. -/
def writeData (kind : Nat) (c : NativeCall) : Exec Value := do
  let w ← thisDataView c.this
  let place ← toPlace (c.arg 0) "invalid array index"
  let bits ← elementBits kind (c.arg 1)
  let size := View.elementSize kind
  if place + size > w.length then rangeError "out of bound"
  let bits := if (c.arg 2).truthy then bits else View.reverseBytes bits size
  writeBuffer w.buffer (w.offset + place) bits size
  return .undefined

def dataViewFn (f : DataViewFn) (c : NativeCall) : Exec Value := do
  match f with
  | .construct => constructDataView c
  | .buffer => return .obj (← thisDataView c.this).buffer
  | .byteLength => return .ofNat (← thisDataView c.this).length
  | .byteOffset => return .ofNat (← thisDataView c.this).offset
  | .read kind => readData kind c
  | .write kind => writeData kind c

/-- The kinds of number that data views know, with the names of their methods. -/
def dataKinds : List (String × Nat) :=
  [("Int8", 0), ("Uint8", 1), ("Int16", 3), ("Uint16", 4), ("Int32", 5), ("Uint32", 6),
    ("BigInt64", 7), ("BigUint64", 8), ("Float32", 9), ("Float64", 10)]

def dataViewMethods : List Member :=
  [getter "buffer" (.dataView .buffer), getter "byteLength" (.dataView .byteLength),
    getter "byteOffset" (.dataView .byteOffset)]
    ++ dataKinds.map (fun (name, kind) => method ("get" ++ name) (.dataView (.read kind)) 1)
    ++ dataKinds.map (fun (name, kind) => method ("set" ++ name) (.dataView (.write kind)) 2)
    ++ [tag "DataView"]

end ScriptSandbox.Library
