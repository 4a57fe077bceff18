import PreviewCompiler.Json.Decoder
import PreviewCompiler.Json.Printer
import PreviewCompiler.Package.Redirects
import PreviewCompiler.Registry.Basic

namespace PreviewCompiler

open Data

structure ImportMap where
  imports : OrderedMap String String := []
  deriving DecidableEq, Repr

structure KeyConflict where
  key : String
  own : String
  package : String
  deriving DecidableEq, Repr

namespace ImportMap

def get? (key : String) (m : ImportMap) : Option String := OrderedMap.find? key m.imports

def contains (key : String) (m : ImportMap) : Bool := OrderedMap.contains key m.imports

def toJson (m : ImportMap) : Json :=
  .object [("imports",.object (m.imports.map fun (k,v) => (k,.string v)))]

def importsField : Json.Read.Field (Option ImportMap) :=
  Json.Read.field "imports" (Json.Read.map Json.Read.string) fun es _ => some ⟨OrderedMap.ofList es⟩

def required (cause : Json.Cause) : Option ImportMap → Json.Read ImportMap
  | some m => return m
  | none => Json.Read.failAround cause

def read : Json.Read ImportMap := do
  match ← Json.Read.ahead? with
  | some '{' =>
    Json.Read.skip
    Json.Read.closed
      (do
        let m? ← Json.Read.recordFields [importsField] ((← get).rest.length + 1) true [] none
        required (.missingField "imports") m?)
      Json.Read.endObject
  | some '[' =>
    Json.Read.skip
    Json.Read.closed
      (do
        let m? ← Json.Read.recordElements [importsField] true none
        required (.invalidLength 0 "struct ImportMap with 1 element") m?)
      Json.Read.endList
  | _ => Json.Read.wrongType "struct ImportMap"

def parse (s : String) : Except Json.Fault ImportMap := Json.Read.runAll read s

/-- The packages that every page imports itself. -/
def runtimePackages : List String := ["react","react-dom","react-dom/client","react/jsx-runtime"]

def dropEnd? (tail s : String) : Option String :=
  if tail.toList.isSuffixOf s.toList then
    some (String.ofList (s.toList.take (s.toList.length - tail.toList.length)))
  else none

/-- The shorter forms of a path: without its extension, and the directory of an index file. -/
def shortForms (path : String) : List String :=
  match Resolution.extensions.findSome? (dropEnd? · path) with
  | none => []
  | some stem =>
    stem :: (Resolution.indexFiles.filterMap fun f => dropEnd? ("/" ++ f) path).filter (· != "")

/-- A path and the same behind `@`. -/
def aliases (path : String) : List String := ["@" ++ path,path]

/-- Does a short form mean the module at `path`? -/
def means (r : Registry) (short path : String) : Bool :=
  Resolution.probe short (Registry.contains · r) == some path

def keysOf (r : Registry) (path : String) : List String :=
  (path :: shortForms path).flatMap fun form =>
    (aliases form).filter fun key => key == path || means r form path

def ownEntries (r : Registry) : OrderedMap String String :=
  OrderedMap.ofList (r.modules.flatMap fun (path,m) =>
    (keysOf r path).map fun key => (key,m.reference.text))

/-- The entries of the packages; what every page imports comes first. -/
def packageEntries (r : Registry) (redirects : Redirects) : OrderedMap String String :=
  (runtimePackages.filterMap PackageSpec.parse? ++ r.packages).foldl
    (fun m p => OrderedMap.insertNew p.bare (redirects.urlFor p) m) []

/-- Put entries of packages behind those of modules, which win. -/
def merge (own packages : OrderedMap String String) : ImportMap × List KeyConflict :=
  (⟨packages.foldl (fun m (k,v) => OrderedMap.insertNew k v m) own⟩,
    packages.filterMap fun (key,package) =>
      (OrderedMap.find? key own).map fun own => ⟨key,own,package⟩)

/-- The import map of the registered modules: a module has its path as a key, the path behind `@`, and every
shorter form that means it; the packages have their names. -/
def build (r : Registry) (redirects : Redirects) : ImportMap :=
  (merge (ownEntries r) (packageEntries r redirects)).1

end ImportMap

end PreviewCompiler
