/-!
# What a guest threw

A failure of guest code is a text, something with a name and a message, or any other value in
written form. Exhausted stacks and heaps have one wording each, however they came to light.
-/

namespace ScriptSandbox

/-- A failure of guest code. -/
inductive GuestError where
  | text (s : String)
  | structured (name message : String) (stack : Option String)
  | other (written : String)
  deriving DecidableEq, Repr, Inhabited

namespace GuestError

/-- The wording of an exhausted heap. -/
def outOfMemoryMessage : String := "InternalError: out of memory"

/-- The wording of an exhausted stack. -/
def stackOverflowMessage : String := "RangeError: Maximum call stack size exceeded"

/-- Words by which an exhausted stack is recognised, in lower case. -/
def stackOverflowWords : List String :=
  ["stack overflow", "maximum call stack size exceeded", "too much recursion"]

/-- A character in lower case, as far as the words above can tell. -/
def lower (c : Char) : Char := if c == '\u212a' then 'k' else c.toLower

/-- Whether a text occurs in another. -/
def occursIn (word : List Char) : List Char → Bool
  | [] => word.isEmpty
  | c :: cs => word.isPrefixOf (c :: cs) || occursIn word cs

/-- Whether a text speaks of an exhausted stack. -/
def isStackOverflow (s : String) : Bool :=
  let lowered := s.toList.map lower
  stackOverflowWords.any fun w => occursIn w.toList lowered

/-- A failure as it is worded, before an exhausted stack is recognised. -/
def rendered : GuestError → String
  | .text s => s
  | .other s => s
  | .structured name message stack =>
    let head := if message.isEmpty then name else name ++ ": " ++ message
    match stack with
    | none => head
    | some s => head ++ "\n" ++ s

/-- The wording of a failure. -/
def message (e : GuestError) : String :=
  if isStackOverflow e.rendered then stackOverflowMessage else e.rendered

/-- What a failure turns out to be if the heap was exhausted when it happened: being interrupted,
or failing without so much as an error object, is running out of memory. -/
def onExhaustedHeap (e : GuestError) : GuestError :=
  let exhausted : Bool :=
    match e with
    | .other s => s == "null" || s == "undefined"
    | .structured name message _ =>
      name == "InternalError" && (message == "interrupted" || message == "out of memory")
    | .text _ => false
  if exhausted then .text outOfMemoryMessage else e

end GuestError
end ScriptSandbox
