import PreviewCompiler.Text.Blank
import PreviewCompiler.Text.Split
import PreviewCompiler.Files.Path

namespace PreviewCompiler

/-- A package by one segment, or by two if the first starts with an at sign, with a version and a path inside
of it: `@scope/name@1.2/part`. -/
structure PackageSpec where
  name : String
  version : Option String := none
  subpath : Option String := none
  deriving DecidableEq, Repr

namespace PackageSpec

def isForbidden (c : Char) : Bool := c == ':' || Text.isBlank c || c == '"' || c == '\''

/-- What stands in front of the first slash and what behind it. -/
def cutSlash (cs : List Char) : List Char × Option (List Char) :=
  match Text.cutAt? ['/'] cs with
  | some (front,back) => (front,some back)
  | none => (cs,none)

/-- What stands in front of the last at sign and what behind it. -/
def cutVersion (cs : List Char) : List Char × Option (List Char) :=
  match Path.beforeLast? (· == '@') cs with
  | some front => (front,some (cs.drop (front.length + 1)))
  | none => (cs,none)

/-- The name with its version, and the path inside of the package.  A name with a scope has a slash of
its own. -/
def cutSubpath? : List Char → Option (List Char × Option (List Char))
  | '@' :: cs =>
    match cutSlash cs with
    | (_,none) => none
    | (scope,some back) =>
      let (segment,subpath) := cutSlash back
      some ('@' :: scope ++ '/' :: segment,subpath)
  | cs => some (cutSlash cs)

/-- The name and the version; the at sign of a scope marks no version. -/
def cutHead : List Char → List Char × Option (List Char)
  | '@' :: cs =>
    let (name,version) := cutVersion cs
    ('@' :: name,version)
  | cs => cutVersion cs

def isName (name : List Char) : Bool :=
  !name.isEmpty && name != ['@'] && name.getLast? != some '/'
    && (name.head? != some '@' || name.contains '/')

def parse? (s : String) : Option PackageSpec := do
  let cs := s.toList
  guard (!cs.isEmpty && !cs.any isForbidden)
  let (head,subpath) ← cutSubpath? cs
  let (name,version) := cutHead head
  guard (isName name && version != some [])
  return {
    name := String.ofList name
    version := version.map String.ofList
    subpath := (subpath.filter (!·.isEmpty)).map String.ofList }

/-- The path inside of the package as it follows a name. -/
def subpathText (p : PackageSpec) : String :=
  match p.subpath with
  | some s => "/" ++ s
  | none => ""

/-- The text that names the package whatever its version. -/
def bare (p : PackageSpec) : String := p.name ++ p.subpathText

def text (p : PackageSpec) : String :=
  match p.version with
  | some v => p.name ++ "@" ++ v ++ p.subpathText
  | none => p.bare

/-- Sorts by the name, then the version, then the path; what is missing comes first. -/
def sortKey (p : PackageSpec) : List String :=
  [p.name,(p.version.map ("1" ++ ·)).getD "",(p.subpath.map ("1" ++ ·)).getD ""]

/-- Put a package into a sorted list that does not hold it. -/
def insert (p : PackageSpec) : List PackageSpec → List PackageSpec
  | [] => [p]
  | q :: qs =>
    if p = q then q :: qs
    else if p.sortKey < q.sortKey then p :: q :: qs
    else q :: insert p qs

end PackageSpec

end PreviewCompiler
