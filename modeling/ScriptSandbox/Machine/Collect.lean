import ScriptSandbox.Machine.State

/-!
# Memory in use

What can be reached from where the machine may look is in use; `Survey.of` finds it, and estimates
how many bytes it takes. A string that is held in several places counts in each of them; but all
strings together never count for more than was asked for to make them. `collect` frees everything
else. That is only right while every value in use
can be seen, that is, while no operation holds values that only it knows.
-/

namespace ScriptSandbox

/-- What has been found to be in use. -/
structure Survey where
  /-- Whether the object at each place is in use. -/
  objects : Array Bool
  cells : Array Bool
  /-- Objects whose contents have not been looked at. -/
  todo : List Nat := []
  /-- Bytes, without those of strings. -/
  bytes : Nat := 0
  /-- Bytes of strings. -/
  text : Nat := 0

namespace Survey

/-- From how many units on a string is counted by itself. -/
def longString : Nat := 32

def object (s : Survey) (a : Nat) : Survey :=
  if s.objects.getD a true then s
  else { s with objects := s.objects.setIfInBounds a true, todo := a :: s.todo }

def objectList (s : Survey) (as : List Nat) : Survey := as.foldl object s

/-- Finds a value other than what a cell holds. -/
def value (s : Survey) (v : Value) : Survey :=
  match v with
  | .obj a => s.object a
  | .str t =>
    if t.length < longString then s else { s with text := s.text + 24 + t.length }
  | .big n => { s with bytes := s.bytes + n.natAbs.log2 / 8 }
  | _ => s

def values (s : Survey) (vs : Array Value) : Survey := vs.foldl value s

def cell (m : Machine) (s : Survey) (i : Nat) : Survey :=
  if s.cells.getD i true then s
  else
    let s := { s with cells := s.cells.setIfInBounds i true, bytes := s.bytes + 32 }
    s.value (m.cells.getD i .undefined)

def cellArray (m : Machine) (s : Survey) (is : Array Nat) : Survey := is.foldl (cell m) s

/-- Finds what a run holds. -/
def frame (m : Machine) (s : Survey) (fr : Frame) : Survey :=
  let s := ((s.values fr.stack).values fr.locals).values fr.args
  let s := ((s.value fr.thisValue).value fr.newTarget).object fr.callee
  s.cellArray m fr.cells

/-- Finds the functions that settle a promise. -/
def capability (s : Survey) (c : Capability) : Survey :=
  ((s.value c.promise).value c.resolve).value c.reject

def reaction (s : Survey) (r : Reaction) : Survey :=
  (r.capability.toList.foldl capability s |>.value r.onFulfilled).value r.onRejected

/-- Finds what is in an object besides its properties. -/
def kind (m : Machine) (s : Survey) (k : Kind) : Survey :=
  match k with
  | .array items _ => ({ s with bytes := s.bytes + 16 * items.size } : Survey).values items
  | .closure c =>
    let s := s.cellArray m c.cells
    (s.objectList (c.home.toList ++ c.fields.toList)).object c.owner
  | .native _ slots _ => s.values slots
  | .bound target this args => ((s.object target).value this).values args
  | .boxed v => s.value v
  | .collection _ c =>
    c.entries.foldl (fun s e =>
      match e with
      | some (k, v) => ({ (s.value k).value v with bytes := s.bytes + 64 } : Survey)
      | none => s) s
  | .collectionIterator target _ _ | .arrayIterator target _ _ => s.objectList target.toList
  | .matchIterator regExp t _ _ => (s.objectList regExp.toList).value (.str t)
  | .stringIterator t _ => s.value (.str t)
  | .asyncFromSync i n => (s.value i).value n
  | .promise p => p.reactions.foldl reaction (s.value p.value)
  | .proxy target handler _ _ => s.objectList (target.toList ++ handler.toList)
  | .generator c =>
    let s := c.frame.toList.foldl (frame m) s
    let s := c.capability.toList.foldl capability s
    c.requests.foldl (fun s r => (s.capability r.capability).value r.value) s
  | .forIn names => s.objectList (names.map (·.2))
  | .namespace exports =>
    exports.foldl (fun s e =>
      match e.2 with
      | .cell i => s.cell m i
      | .whole i => s.objectList (((m.modules[i]?).bind (·.namespaceObject)).toList)) s
  | .buffer bytes => { s with bytes := s.bytes + bytes.size }
  | .view _ b _ _ | .dataView b _ _ => s.object b
  | _ => s

def property (s : Survey) (p : Property) : Survey :=
  match p with
  | .data v .. => s.value v
  | .accessor g t .. => (s.value g).value t

def contents (m : Machine) (s : Survey) (a : Nat) : Survey :=
  match m.heap[a]? with
  | none => s
  | some o =>
    let s := { s with bytes := s.bytes + 104 + 24 * o.props.entries.size }
    let s := o.props.entries.foldl (fun s e => s.property e.2) s
    (s.objectList o.proto.toList).kind m o.kind

/-- Looks at the contents of all objects that are found. -/
def run (m : Machine) : (fuel : Nat) → Survey → Survey
  | 0, s => s
  | fuel + 1, s =>
    match s.todo with
    | [] => s
    | a :: todo => run m fuel (({ s with todo } : Survey).contents m a)

def job (s : Survey) (j : Job) : Survey :=
  match j with
  | .reaction h _ c v => ((c.toList.foldl capability s).value h).value v
  | .thenable p v f => ((s.object p).value v).value f
  | .importModule c _ v => (s.capability c).value v

def module (m : Machine) (s : Survey) (r : ModuleRecord) : Survey :=
  let s := s.cellArray m r.cells
  let s := s.objectList (r.function.toList ++ r.namespaceObject.toList ++ r.metaObject.toList)
  let s := r.frame.toList.foldl (frame m) s
  let s := r.capability.toList.foldl capability s
  r.failure.toList.foldl value s

/-- Everything that is in use. -/
def of (m : Machine) : Survey :=
  let s : Survey :=
    { objects := Array.replicate m.heap.size false, cells := Array.replicate m.cells.size false }
  let s := s.objectList (List.range firstFreePlace)
  let s := m.frames.foldl (fun s w =>
    match w with
    | .code fr => s.frame m fr
    | .native _ held => s.values held) s
  let s := m.jobs.toList.foldl job s
  let s := m.modules.foldl (module m) s
  let s := m.lexicals.fold (fun s _ l => s.cell m l.cell) s
  let s := m.roots.foldl value s
  let s := m.templates.foldl (fun s t => s.value t.pieces) s
  run m (m.heap.size + 1) s

end Survey

namespace Machine

def measuredBy (m : Machine) (s : Survey) : MemoryUse :=
  let text := min s.text m.memory.text
  { m.memory with charged := s.bytes + text, text }

def measured (m : Machine) : MemoryUse := m.measuredBy (Survey.of m)

def bytesInUse (m : Machine) : Nat := m.measured.charged

def unused (found : Array Bool) : List Nat :=
  let rec go : Nat → List Nat → List Nat
    | 0, acc => acc
    | i + 1, acc => go i (if found.getD i true then acc else i :: acc)
  go found.size []

/-- Frees all objects and cells that are not in use. -/
def collect (m : Machine) : Machine :=
  let s := Survey.of m
  let objects := unused s.objects
  let cells := unused s.cells
  let heap := objects.foldl (fun h a => h.setIfInBounds a { kind := .free }) m.heap
  let values := cells.foldl (fun c i => c.setIfInBounds i .undefined) m.cells
  let live := m.heap.size - objects.length
  { m with
    heap
    freePlaces := objects
    cells := values
    freeCells := cells
    memory := { m.measuredBy s with sweepAt := max 200000 (2 * live) } }

end Machine
end ScriptSandbox
