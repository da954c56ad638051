import ScriptSandbox.Outcome.Log

/-!
# Functions of the standard library

Each function that guest code finds in its globals, or that the machine makes for its own use, has
a name here. What they do is defined where the library is; the machine only has to tell them apart.
-/

namespace ScriptSandbox

/-- The kinds of error that have a constructor of their own. -/
inductive ErrorKind where
  | error | evalError | rangeError | referenceError | syntaxError | typeError | uriError
  | internalError | aggregateError
  deriving BEq, Inhabited, DecidableEq

/-- Functions of objects. -/
inductive ObjectFn where
  | construct | create | getPrototypeOf | setPrototypeOf | defineProperty | defineProperties
  | getOwnPropertyNames | getOwnPropertySymbols | keys | values | entries | isExtensible
  | preventExtensions | getOwnPropertyDescriptor | getOwnPropertyDescriptors | is | assign | seal
  | freeze | isSealed | isFrozen | fromEntries | hasOwn | groupBy
  | toString | toLocaleString | valueOf | hasOwnProperty | isPrototypeOf | propertyIsEnumerable
  | protoGet | protoSet | defineGetter | defineSetter | lookupGetter | lookupSetter
  deriving BEq, Inhabited

/-- Functions of functions. -/
inductive FunctionFn where
  | construct (isAsync isGenerator : Bool) | prototype | call | apply | bind | toString
  | hasInstance | thrower
  deriving BEq, Inhabited

/-- Functions of errors. -/
inductive ErrorFn where
  | construct (k : ErrorKind) | toString
  deriving BEq, Inhabited

/-- Functions of arrays. -/
inductive ArrayFn where
  | construct | isArray | «from» | of | at | concat | every | some | forEach | map | filter | reduce
  | reduceRight | fill | find | findIndex | findLast | findLastIndex | indexOf | lastIndexOf
  | includes | join | toString | toLocaleString | pop | push | shift | unshift | reverse | sort
  | slice | splice | copyWithin | flatMap | flat | values | keys | entries | withItem | toReversed
  | toSorted | toSpliced | iteratorNext | species
  deriving BEq, Inhabited

/-- Functions of strings. -/
inductive StringFn where
  | construct | fromCharCode | fromCodePoint | raw | at | charCodeAt | charAt | concat | codePointAt
  | indexOf | lastIndexOf | includes | endsWith | startsWith | «match» | matchAll | search | split
  | substring | substr | slice | «repeat» | replace | replaceAll | padEnd | padStart | trim
  | trimEnd | trimStart | toString | toLowerCase | toUpperCase | isWellFormed | toWellFormed
  | normalize | localeCompare | iterator | iteratorNext
  deriving BEq, Inhabited

/-- Functions of numbers. -/
inductive NumberFn where
  | construct | isNaN | isFinite | isInteger | isSafeInteger | toExponential | toFixed | toPrecision
  | toString | toLocaleString | valueOf
  deriving BEq, Inhabited

/-- Functions of Booleans, symbols and big integers. -/
inductive PrimitiveFn where
  | booleanConstruct | booleanToString | booleanValueOf
  | symbolConstruct | symbolFor | symbolKeyFor | symbolToString | symbolValueOf | symbolToPrimitive
  | symbolDescription
  | bigConstruct | bigAsIntN | bigAsUintN | bigToString | bigValueOf
  deriving BEq, Inhabited

/-- Functions of `Math`. -/
inductive MathFn where
  | abs | acos | acosh | asin | asinh | atan | atan2 | atanh | cbrt | ceil | clz32 | cos | cosh
  | exp | expm1 | floor | fround | hypot | imul | log | log10 | log1p | log2 | max | min | pow
  | random | round | sign | sin | sinh | sqrt | tan | tanh | trunc
  deriving BEq, Inhabited

/-- Functions of `Reflect` and proxies. -/
inductive ReflectFn where
  | apply | construct | defineProperty | deleteProperty | get | getOwnPropertyDescriptor
  | getPrototypeOf | has | isExtensible | ownKeys | preventExtensions | set | setPrototypeOf
  | proxyConstruct | proxyRevocable | proxyRevoke
  deriving BEq, Inhabited

/-- Functions of promises, and those that the machine makes for them. -/
inductive PromiseFn where
  | construct | resolve | reject | all | allSettled | any | race | «then» | «catch» | «finally»
  | withResolvers | species
  /-- Resolves or rejects the promise in its first slot, unless the cell in its second says no. -/
  | settle (rejects : Bool)
  /-- Keeps the two functions that it is given. -/
  | capability
  | allElement | settledElement (rejects : Bool) | anyElement
  | thenFinally | catchFinally | valueThunk | thrower
  /-- Goes on with the asynchronous function in its slot. -/
  | asyncResume (throws : Bool)
  | asyncGeneratorResume (throws : Bool)
  | asyncFromSync (done : Bool)
  /-- Settles the promise of an `import` when the module has been evaluated. -/
  | moduleDone (fails : Bool)
  | importDone (fails : Bool)
  deriving BEq, Inhabited

/-- The kinds of keyed collections. -/
inductive CollectionKind where
  | map | set | weakMap | weakSet
  deriving BEq, Inhabited

/-- Functions of keyed collections. -/
inductive CollectionFn where
  | construct | get | set | has | delete | clear | add | size | forEach | keys | values | entries
  | iteratorNext | groupBy | species
  deriving BEq, Inhabited

/-- Functions of generators. -/
inductive GeneratorFn where
  | next | «return» | throw | asyncNext | asyncReturn | asyncThrow | iteratorSelf
  | asyncIteratorSelf | syncNext | syncReturn | syncThrow
  deriving BEq, Inhabited

/-- Functions of dates. -/
inductive DateFn where
  | construct | now | parse | utc | getField (i : Nat) (utc : Bool)
  | setField (i : Nat) (utc : Bool) | getDay (utc : Bool) | getTime | setTime | getTimezoneOffset
  | getYear | toISOString | toJSON | toString | toDateString | toTimeString | toUTCString
  | toLocale (part : Nat) | toPrimitive
  deriving BEq, Inhabited

/-- Functions of regular expressions. -/
inductive RegExpFn where
  | construct | exec | compile | test | toString | source | flags | flag (c : Char) | species
  | replace | «match» | matchAll | search | split | iteratorNext
  deriving BEq, Inhabited

/-- Functions of buffers and views. -/
inductive BufferFn where
  | construct | isView | byteLength | slice | species
  | viewConstruct (kind : Nat) | viewAbstract | viewLength | viewByteLength | viewByteOffset
  | viewBuffer | viewTag | viewFrom | viewOf | viewSet | viewSubarray | viewSlice | viewFill
  | viewMap | viewFilter | viewSort | viewToSorted | viewToReversed | viewWith
  deriving BEq, Inhabited

/-- Functions of data views. -/
inductive DataViewFn where
  | construct | buffer | byteLength | byteOffset | read (kind : Nat) | write (kind : Nat)
  deriving BEq, Inhabited

/-- Functions that are globals. -/
inductive GlobalFn where
  | parseInt | parseFloat | isNaN | isFinite | decodeURI | decodeURIComponent | encodeURI
  | encodeURIComponent | escape | unescape | eval
  deriving BEq, Inhabited

/-- A function of the standard library. -/
inductive Builtin where
  | object (f : ObjectFn)
  | function (f : FunctionFn)
  | error (f : ErrorFn)
  | array (f : ArrayFn)
  | string (f : StringFn)
  | number (f : NumberFn)
  | primitive (f : PrimitiveFn)
  | math (f : MathFn)
  | jsonParse
  | jsonStringify
  | reflect (f : ReflectFn)
  | promise (f : PromiseFn)
  | collection (k : CollectionKind) (f : CollectionFn)
  | generator (f : GeneratorFn)
  | date (f : DateFn)
  | regExp (f : RegExpFn)
  | buffer (f : BufferFn)
  | dataView (f : DataViewFn)
  | global (f : GlobalFn)
  /-- Writes its arguments as a line, and keeps it if it is to be kept. -/
  | console (level : LogLevel) (keeps : Bool)
  /-- Keeps a line at the level that its first argument names. -/
  | record
  deriving Inhabited

end ScriptSandbox
