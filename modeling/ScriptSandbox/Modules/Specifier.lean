import ScriptSandbox.Settings
import ScriptSandbox.Url.Read

/-!
# Module specifiers

What a guest writes after `from` is an absolute URL, a relative path, or the name of a package,
perhaps with a path into it. A `Resolver` turns each of them into the URL of a module: absolute
URLs stand for themselves, relative paths are joined onto the URL of the module that holds them,
and everything else is looked for under the root of a content network.
-/

namespace ScriptSandbox

namespace Specifier

/-- Whether a text begins with another. -/
def startsWith (s : String) (start : String) : Bool := start.toList.isPrefixOf s.toList

/-- A URL of the web. -/
def isAbsoluteUrl (s : String) : Bool := startsWith s "https://" || startsWith s "http://"

/-- A path: `./x`, `../x`, `/x`, or a lone `.` or `..`. -/
def isRelative (s : String) : Bool :=
  startsWith s "./" || startsWith s "../" || startsWith s "/" || s == "." || s == ".."

/-- The name of a package, perhaps with a path into it. -/
def isBare (s : String) : Bool := !s.isEmpty && !isRelative s && !isAbsoluteUrl s

/-- The name of a module that is served from memory. -/
def isInline (s : String) : Bool := startsWith s "jsbox:"

/-- What stands before the first slash. -/
def beforeSlash (s : List Char) : List Char := s.takeWhile (· != '/')

/-- What stands after the first slash, if there is one. -/
def afterSlash? (s : List Char) : Option (List Char) :=
  match s.dropWhile (· != '/') with
  | [] => none
  | _ :: rest => some rest

/-- The package that a bare specifier names, with its version: the first segment, or the first two
if it begins with a scope. -/
def packageBase (s : String) : Option String :=
  if !isBare s then none
  else
    let cs := s.toList
    if startsWith s "@" then do
      let second := beforeSlash (← afterSlash? cs)
      if second.isEmpty then none
      else some (String.ofList (beforeSlash cs ++ '/' :: second))
    else some (String.ofList (beforeSlash cs))

/-- Whether a path from the root names a package: `/name` or `/@scope/name`. -/
def isRootPackagePath (s : String) : Bool :=
  match s.toList with
  | '/' :: '@' :: path =>
    match afterSlash? path with
    | some name => !(beforeSlash path).isEmpty && !name.isEmpty && name.head? != some '/'
    | none => false
  | '/' :: c :: _ => c != '/'
  | _ => false

end Specifier

/-- Where packages are looked for: the root of a content network, without slashes at its end. -/
structure Resolver where
  root : String
  deriving DecidableEq, Repr, Inhabited

namespace Resolver

/-- The resolver for a root; slashes at its end are dropped. -/
def ofRoot (root : String) : Resolver :=
  ⟨String.ofList (root.toList.reverse.dropWhile (· == '/')).reverse⟩

/-- The resolver for the root that the settings name. -/
def ofSettings (s : ModuleSettings) : Resolver := ofRoot s.cdnRoot

/-- The resolver for the default root. -/
def standard : Resolver := ofRoot defaultCdnRoot

/-- The URL of a specifier that stands by itself. -/
def resolve (r : Resolver) (s : String) : String :=
  if Specifier.isAbsoluteUrl s then s
  else if Specifier.isRootPackagePath s then r.root ++ s
  else r.root ++ "/" ++ s

/-- A specifier joined onto the URL of the module that holds it. -/
def join (base s : String) : Option String := do
  let url ← Url.read? base
  return (← url.join? s).text

/-- The URL of a specifier that the module at `base` holds. -/
def resolveFrom (r : Resolver) (base s : String) : String :=
  if Specifier.isRelative s && Specifier.isAbsoluteUrl base then
    match join base s with
    | some joined => joined
    | none => r.resolve s
  else r.resolve s

/-- The name of the module that a specifier in the module at `base` means: modules in memory go by
the name they have. -/
def moduleName (r : Resolver) (base s : String) : String :=
  if Specifier.isInline s then s else r.resolveFrom base s

end Resolver
end ScriptSandbox
