import ScriptSandbox.Url.Basic

/-!
# Reading URLs

`Url.read?` reads a text as a URL of its own; `Url.join?` reads it as seen from a base, where a
text without a scheme names a place relative to the base. Blanks and controls at both ends and
tabs and line breaks anywhere count for nothing.

A path is read segment by segment onto the path there is: `.` adds nothing, `..` takes the last
segment away, and both may be written with `%2e`. In a file URL a drive such as `C:` is never
taken away.
-/

namespace ScriptSandbox.Url

/-! ## Paths -/

/-- Whether a text is a letter followed by a colon. -/
def isDrive : List Char → Bool
  | [c, ':'] => Text.isAsciiLetter c
  | _ => false

/-- Whether a text is a letter followed by a colon or a bar. -/
def isDriveLike : List Char → Bool
  | [c, ':'] | [c, '|'] => Text.isAsciiLetter c
  | _ => false

/-- Whether a text begins with a drive that is a whole segment. -/
def startsWithDrive : List Char → Bool
  | [c, d] => isDriveLike [c, d]
  | c :: d :: e :: _ => isDriveLike [c, d] && (e == '/' || e == '\\' || e == '?' || e == '#')
  | _ => false

def endsWithSlash (s : List Char) : Bool := s.getLast? == some '/'

/-- What follows the last slash. -/
def lastSegment (path : List Char) : List Char :=
  (path.reverse.takeWhile (· != '/')).reverse

/-- A path without its last segment, but with the slash before it. -/
def popSegment (k : SchemeKind) (path : List Char) : List Char :=
  let last := lastSegment path
  if k == .file && isDrive last then path else path.take (path.length - last.length)

/-- Whether the slash at the end of a path may go when the segment before it goes: it is not the
first one and does not follow a drive. -/
def endSlashRemovable (path : List Char) : Bool :=
  let body := path.dropLast
  body.contains '/' && !startsWithDrive (lastSegment body ++ ['/'])

/-- The forms of `..`. -/
def isDoubleDot (s : List Char) : Bool :=
  ["..", "%2e%2e", "%2e.", ".%2e"].contains ((String.ofList s).map Char.toLower)

/-- The forms of `.`. -/
def isSingleDot (s : List Char) : Bool :=
  [".", "%2e"].contains ((String.ofList s).map Char.toLower)

/-- Adds a slash unless there is one at the end. -/
def withSlash (path : List Char) : List Char := if endsWithSlash path then path else path ++ ['/']

/-- Reads one segment onto a path; `slash` tells whether a slash follows it. -/
def addSegment (k : SchemeKind) (path segment : List Char) (slash : Bool) : List Char :=
  let path :=
    if k == .file && !segment.isEmpty && isDrive (path.drop 1) then path ++ ['/'] else path
  let written := encode inPath segment
  let tail := if slash then ['/'] else []
  if isDoubleDot written then
    let path := if endsWithSlash path && endSlashRemovable path then path.dropLast else path
    let path := popSegment k path
    if slash then withSlash path else path
  else if isSingleDot written then withSlash path
  else if k == .file && path.length == 1 && isDriveLike written then
    path ++ written.take 1 ++ ':' :: tail
  else path ++ written ++ tail

/-- The segments of a text, cut at every slash. -/
def segments (special : Bool) : List Char → List (List Char)
  | [] => [[]]
  | c :: cs =>
    if c == '/' || (special && c == '\\') then [] :: segments special cs
    else
      match segments special cs with
      | [] => [[c]]
      | p :: ps => (c :: p) :: ps

def addSegments (k : SchemeKind) (path : List Char) : List (List Char) → List Char
  | [] => path
  | [s] => addSegment k path s false
  | s :: ss => addSegments k (addSegment k path s true) ss

def endsPath (c : Char) : Bool := c == '?' || c == '#'

/-- Reads a path onto the path there is, up to the query or the fragment. -/
def readPath (k : SchemeKind) (path s : List Char) : List Char × List Char :=
  let path := addSegments k path (segments k.special (s.takeWhile (!endsPath ·)))
  let path := if k == .file then '/' :: path.dropWhile (· == '/') else path
  (path, s.dropWhile (!endsPath ·))

/-- Reads the path after an authority. -/
def readPathAfterHost (k : SchemeKind) (s : List Char) : List Char × List Char :=
  match s with
  | c :: rest =>
    if k.special then
      if c == '/' || c == '\\' then readPath k ['/'] rest else readPath k ['/'] s
    else if endsPath c then ([], s)
    else if c == '/' then readPath k [] s
    else readPath k ['/'] s
  | [] => if k.special then readPath k ['/'] [] else readPath k [] []

/-- Whether a file URL's host gives way, as its path begins with a drive. -/
def pathTakesHost (s : List Char) : Bool :=
  match s with
  | '/' :: rest | '\\' :: rest => startsWithDrive rest
  | _ => false

/-! ## Query and fragment -/

/-- Adds the query and the fragment with which a text ends. -/
def withRest (u : Url) (s : List Char) : Url :=
  let fragmentOf (s : List Char) : Option (List Char) :=
    match s with
    | '#' :: f => some (encode inFragment f)
    | _ => none
  match s with
  | '?' :: rest =>
    { u with
      query := some (encode (inQuery u.kind.special) (rest.takeWhile (· != '#')))
      fragment := fragmentOf (rest.dropWhile (· != '#')) }
  | s => { u with query := none, fragment := fragmentOf s }

/-! ## Authorities -/

def endsAuthority (k : SchemeKind) (c : Char) : Bool :=
  c == '/' || c == '?' || c == '#' || (k.special && c == '\\')

/-- What stands before the last `@` of a text, and what after it. -/
def splitUser (s : List Char) : Option (List Char × List Char) :=
  if s.contains '@' then
    let r := s.reverse
    some ((r.dropWhile (· != '@')).tail.reverse, (r.takeWhile (· != '@')).reverse)
  else none

/-- A host up to the colon before the port, if there is one outside brackets, and the rest. -/
def splitHost : (inBrackets : Bool) → List Char → List Char × List Char
  | _, [] => ([], [])
  | b, c :: cs =>
    if c == ':' && !b then ([], c :: cs)
    else
      let (h, rest) := splitHost (if c == '[' then true else if c == ']' then false else b) cs
      (c :: h, rest)

/-- A port after its colon; no digits are no port, and so is the scheme's own. -/
def readPort? (scheme ds : List Char) : Option (Option Nat) := do
  if ds.any fun c => !('0' ≤ c && c ≤ '9') then none
  let n := ds.foldl (fun n c => n * 10 + (c.toNat - 48)) 0
  if n > 65535 then none
  return if ds.isEmpty || defaultPort? scheme == some n then none else some n

/-- Reads what follows the two slashes of an authority. -/
def readAuthority? (scheme s : List Char) : Option Url := do
  let k := SchemeKind.of scheme
  let authority := s.takeWhile (!endsAuthority k ·)
  let rest := s.dropWhile (!endsAuthority k ·)
  let (user, place) ←
    match splitUser authority with
    | none => pure ([], authority)
    | some ([], place) => if place.isEmpty && !rest.isEmpty then none else pure ([], place)
    | some p => pure p
  let username := encode inUser (user.takeWhile (· != ':'))
  let password := encode inUser ((user.dropWhile (· != ':')).drop 1)
  let (hostText, portText) := splitHost false place
  if hostText.isEmpty then
    if k.special || !portText.isEmpty || !(username.isEmpty && password.isEmpty) then none
  let host ← host? k.special hostText
  let port ← readPort? scheme (portText.drop 1)
  let (path, rest) := readPathAfterHost k rest
  some ({ scheme, username, password, host := some host, port, path : Url }.withRest rest)

/-! ## File URLs -/

def noName : Option Host := some (.domain [])

/-- Reads what follows the two slashes of a file URL. -/
def readFileHost? (s : List Char) : Option Url := do
  let ends (c : Char) : Bool := endsAuthority .file c
  let name := s.takeWhile (!ends ·)
  let rest := s.dropWhile (!ends ·)
  if isDriveLike name then
    let (path, rest) := readPath .file ['/'] s
    some ({ scheme := "file".toList, host := noName, path : Url }.withRest rest)
  else
    let host ← if name.isEmpty then pure (Host.domain []) else host? true name
    let host := if host == .domain "localhost".toList then .domain [] else host
    let host := if pathTakesHost rest then .domain [] else host
    let (path, rest) := readPathAfterHost .file rest
    some ({ scheme := "file".toList, host := some host, path : Url }.withRest rest)

def firstSegment (path : List Char) : List Char := (path.drop 1).takeWhile (· != '/')

/-- Replaces the fragment of a base by that of a text that begins with `#`. -/
def withFragmentOf (base : Url) (s : List Char) : Url :=
  { base with fragment := some (encode inFragment (s.drop 1)) }

/-- Whether a character counts as a slash in a special URL. -/
def isSlash (c : Char) : Bool := c == '/' || c == '\\'

def readFileAfresh (s : List Char) : Url :=
  let (path, rest) := readPath .file ['/'] s
  { scheme := "file".toList, host := noName, path : Url }.withRest rest

/-- A file URL from a path that begins with one slash, followed by `after`: the base gives the
drive, or else the host. -/
def readFileRoot (base : Option Url) (s after : List Char) : Url :=
  let plain : Url := { scheme := "file".toList, host := noName }
  let start : Url :=
    match base with
    | none => plain
    | some u =>
      if startsWithDrive after then plain
      else if isDrive (firstSegment u.path) then { plain with path := '/' :: firstSegment u.path }
      else { plain with host := u.host }
  let (path, rest) := readPath .file start.path s
  { start with path }.withRest rest

/-- A text that takes the place of the last segment, the query or the fragment of a file URL. -/
def readFileRelative (base : Url) (s : List Char) : Url :=
  match s with
  | [] => { base with fragment := none }
  | '?' :: _ => base.withRest s
  | '#' :: _ => base.withFragmentOf s
  | _ =>
    if startsWithDrive s then readFileAfresh s
    else
      let (path, rest) := readPath .file (popSegment .file base.path) s
      { base with path }.withRest rest

/-- Reads a file URL after its scheme, or a text relative to a file URL. -/
def readFile? (base : Option Url) (s : List Char) : Option Url :=
  let relative : Url :=
    match base with
    | some u => readFileRelative u s
    | none => readFileAfresh s
  match s with
  | [] => some relative
  | [a] => if isSlash a then some (readFileRoot base s []) else some relative
  | a :: b :: rest =>
    if !isSlash a then some relative
    else if isSlash b then readFileHost? rest
    else some (readFileRoot base s (b :: rest))

/-! ## Other URLs -/

/-- Reads a text without a scheme, relative to a base that is no file. -/
def readRelative? (base : Url) (s : List Char) : Option Url :=
  let k := base.kind
  match s with
  | [] => some { base with fragment := none }
  | '?' :: _ => some (base.withRest s)
  | '#' :: _ => some (base.withFragmentOf s)
  | c :: after =>
    if isSlash c then
      if (after.head?.map isSlash).getD false then
        match s with
        | '/' :: '/' :: rest => readAuthority? base.scheme rest
        | s => readAuthority? base.scheme (s.dropWhile isSlash)
      else
        let (path, rest) := readPath k ['/'] after
        some ({ base with path }.withRest rest)
    else
      let start := popSegment k base.path
      let start := if start.isEmpty then ['/'] else start
      let (path, rest) := readPath k start s
      some ({ base with path }.withRest rest)

/-- Reads what follows the scheme and its colon. -/
def readAfterScheme? (base : Option Url) (scheme s : List Char) : Option Url :=
  match SchemeKind.of scheme with
  | .file => readFile? (base.filter (·.kind == .file)) s
  | .web =>
    let slashes := (s.takeWhile isSlash).length
    match base with
    | some u =>
      if slashes < 2 && u.scheme == scheme then readRelative? u s
      else readAuthority? scheme (s.dropWhile isSlash)
    | none => readAuthority? scheme (s.dropWhile isSlash)
  | .other =>
    match s with
    | '/' :: '/' :: rest => readAuthority? scheme rest
    | '/' :: rest =>
      let (path, rest) := readPath .other ['/'] rest
      some ({ scheme, path : Url }.withRest rest)
    | s =>
      some ({ scheme, path := encode isControl (s.takeWhile (!endsPath ·)) : Url }.withRest
        (s.dropWhile (!endsPath ·)))

/-- The scheme with which a text begins, in lower case, and what follows its colon. -/
def splitScheme (s : List Char) : Option (List Char × List Char) :=
  let inScheme (c : Char) : Bool :=
    Text.isAsciiLetter c || Text.isAsciiDigit c || c == '+' || c == '-' || c == '.'
  match s with
  | c :: _ =>
    if Text.isAsciiLetter c then
      match s.dropWhile inScheme with
      | ':' :: rest => some ((s.takeWhile inScheme).map Char.toLower, rest)
      | _ => none
    else none
  | [] => none

/-- A text without the blanks and controls at its ends and without tabs and line breaks. -/
def cleaned (s : String) : List Char :=
  let low (c : Char) : Bool := c.toNat ≤ 32
  let core := ((s.toList.dropWhile low).reverse.dropWhile low).reverse
  core.filter fun c => c != '\t' && c != '\n' && c != '\r'

/-- Reads a text, seen from a base if there is one. -/
def readFrom? (base : Option Url) (s : String) : Option Url :=
  let s := cleaned s
  match splitScheme s with
  | some (scheme, rest) => readAfterScheme? base scheme rest
  | none => do
    let u ← base
    if s.head? == some '#' then some (u.withFragmentOf s)
    else if u.isOpaque then none
    else if u.kind == .file then readFile? (some u) s
    else readRelative? u s

/-- The URL that a text is. -/
def read? (s : String) : Option Url := readFrom? none s

/-- The URL that a text names as seen from a base. -/
def join? (base : Url) (s : String) : Option Url := readFrom? (some base) s

end ScriptSandbox.Url
