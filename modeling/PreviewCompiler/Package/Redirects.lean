import PreviewCompiler.Data.OrderedMap
import PreviewCompiler.Package.Specifier

namespace PreviewCompiler

open Data

structure Redirects where
  cdn : String := "https://esm.sh"
  defaultVersion : String := "latest"
  /-- Versions for packages that are named without one. -/
  pins : OrderedMap String String := [("react","19"),("react-dom","19")]
  /-- Packages that the other packages do not bring along. -/
  external : List String := ["react","react-dom"]
  deriving DecidableEq, Repr

namespace Redirects

/-- The version of its own comes first, then the pinned one. -/
def versionFor (r : Redirects) (p : PackageSpec) : String :=
  (p.version <|> OrderedMap.find? p.name r.pins).getD r.defaultVersion

/-- Asks the server to leave out the external packages; they do not ask for themselves. -/
def externalQuery (r : Redirects) (p : PackageSpec) : String :=
  if r.external.isEmpty || r.external.contains p.name then ""
  else "?external=" ++ ",".intercalate r.external

def urlFor (r : Redirects) (p : PackageSpec) : String :=
  Text.dropEndSlashes r.cdn ++ "/" ++ p.name ++ "@" ++ r.versionFor p ++ p.subpathText
    ++ r.externalQuery p

end Redirects

end PreviewCompiler
