import PreviewCompiler.Files.FileSet
import PreviewCompiler.Package.Specifier

namespace PreviewCompiler

inductive Resolution where
  | file (path : String)
  | package (spec : PackageSpec)
  | nothing
  deriving DecidableEq, Repr

namespace Resolution

def extensions : List String := [".jsx",".tsx",".js",".ts"]

def indexFiles : List String := ["index.jsx","index.tsx","index.js","index.ts"]

def isLocal (s : String) : Bool :=
  ["@/","./","../","/"].any (Text.hasFront · s) || s == "." || s == ".."

def isUrl (s : String) : Bool := ["http://","https://","data:","blob:"].any (Text.hasFront · s)

/-- The path that a specifier names in the file `importer`; `@/` is the root of the project. -/
def base (specifier importer : String) : String :=
  match specifier.toList with
  | '@' :: '/' :: rest => Path.normalize (String.ofList rest)
  | '/' :: _ => Path.normalize specifier
  | _ => Path.normalize (Path.parent importer ++ "/" ++ specifier)

/-- The files that a path may stand for, in the order in which they are looked for. -/
def candidates (base : String) : List String :=
  (if base = "/" then [] else base :: extensions.map (base ++ ·))
    ++ indexFiles.map (Text.dropEndSlashes base ++ "/" ++ ·)

def probe (base : String) (isThere : String → Bool) : Option String :=
  (candidates base).find? isThere

def resolve (fs : FileSet) (specifier importer : String) : Resolution :=
  if isLocal specifier then
    match probe (base specifier importer) (FileSet.isFile · fs) with
    | some path => file path
    | none => nothing
  else
    match PackageSpec.parse? specifier with
    | some p => package p
    | none => nothing

end Resolution

end PreviewCompiler
