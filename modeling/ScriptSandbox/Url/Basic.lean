import ScriptSandbox.Url.Host

/-!
# URLs

A URL in its parts, as they are written: what had to be encoded is encoded. `Url.text` puts the
parts together.

The path is kept as text. It begins with a slash, except for the path of a URL that nothing can be
joined onto, such as `mailto:a@b`, and except that it may be empty after an authority.
-/

namespace ScriptSandbox

/-- A URL in its parts. -/
structure Url where
  scheme : List Char
  username : List Char := []
  password : List Char := []
  /-- Absent where no authority is written; the empty domain where an empty one is. -/
  host : Option Url.Host := none
  port : Option Nat := none
  path : List Char := []
  query : Option (List Char) := none
  fragment : Option (List Char) := none
  deriving DecidableEq, Repr, Inhabited

namespace Url

/-- How a scheme is read. -/
inductive SchemeKind where
  /-- `file`. -/
  | file
  /-- The schemes of the web, which always have a host. -/
  | web
  | other
  deriving DecidableEq, Repr, Inhabited

def SchemeKind.of (scheme : List Char) : SchemeKind :=
  let s := String.ofList scheme
  if s == "file" then .file
  else if ["http", "https", "ws", "wss", "ftp"].contains s then .web
  else .other

/-- Whether backslashes count as slashes and the host is a domain. -/
def SchemeKind.special (k : SchemeKind) : Bool := k != .other

/-- The port that is left out after a host of the scheme. -/
def defaultPort? (scheme : List Char) : Option Nat :=
  match String.ofList scheme with
  | "http" | "ws" => some 80
  | "https" | "wss" => some 443
  | "ftp" => some 21
  | _ => none

def kind (u : Url) : SchemeKind := .of u.scheme

/-- Whether nothing but a fragment can be joined onto a URL. -/
def isOpaque (u : Url) : Bool := u.host.isNone && u.path.head? != some '/'

/-- User name and password with the `@` after them, if either is there. -/
def userText (u : Url) : List Char :=
  if u.username.isEmpty && u.password.isEmpty then []
  else u.username ++ (if u.password.isEmpty then [] else ':' :: u.password) ++ ['@']

/-- The authority with its two slashes, if there is one. -/
def authorityText (u : Url) : List Char :=
  match u.host with
  | none => []
  | some h =>
    '/' :: '/' :: u.userText ++ h.text
      ++ (match u.port with
        | none => []
        | some p => ':' :: (toString p).toList)

/-- The path; one that begins with two slashes is guarded by `/.` where it could be mistaken for
an authority. -/
def pathText (u : Url) : List Char :=
  match u.host, u.path with
  | none, '/' :: '/' :: _ => '/' :: '.' :: u.path
  | _, _ => u.path

/-- A mark and what follows it, if there is anything to follow. -/
def marked (mark : Char) : Option (List Char) → List Char
  | none => []
  | some s => mark :: s

/-- The written form. -/
def text (u : Url) : String :=
  String.ofList (u.scheme ++ ':' :: u.authorityText ++ u.pathText
    ++ marked '?' u.query ++ marked '#' u.fragment)

end Url
end ScriptSandbox
