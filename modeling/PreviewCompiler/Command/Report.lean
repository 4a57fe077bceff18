import PreviewCompiler.Preview.Session
import PreviewCompiler.Server.Event

namespace PreviewCompiler.Command

structure ModuleReport where
  path : String
  reference : String
  bytes : Nat
  imports : List String
  deriving DecidableEq, Repr

structure CheckReport where
  root : String
  entry : Option String
  modules : List ModuleReport
  packages : List String
  /-- Only when it is asked for. -/
  importMap : Option ImportMap
  document : Option String
  error : Option CompileError
  notes : List String
  deriving DecidableEq, Repr

namespace ModuleReport

def ofModule (path : String) (m : CompiledModule) : ModuleReport where
  path
  reference := m.reference.text
  bytes := m.code.utf8ByteSize
  imports := m.links.modules

def toJson (m : ModuleReport) : Json :=
  .object
    [("path",.string m.path),("reference",.string m.reference),("bytes",.ofNat m.bytes),
     ("imports",.array (m.imports.map Json.string))]

def line (m : ModuleReport) : String :=
  "    " ++ m.path ++ " -> " ++ m.reference ++ " (" ++ toString m.bytes ++ " bytes)"

end ModuleReport

namespace CheckReport

def ofSession (root : String) (showsDocument showsImportMap : Bool) (error : Option CompileError)
    (notes : List String) (s : PreviewSession) : CheckReport where
  root
  entry := s.document.map (·.entry)
  modules := s.registry.modules.map fun (path,m) => .ofModule path m
  packages := s.registry.packages.map PackageSpec.text
  importMap := if showsImportMap then some s.importMap else none
  document := if showsDocument then s.document.map (·.html) else none
  error
  notes

def toJson (r : CheckReport) : Json :=
  let entry : Json := match r.entry with
    | some entry => .string entry
    | none => .null
  let error : Json := match r.error with
    | some e => .object e.fields
    | none => .null
  let importMap := match r.importMap with
    | some m => [("import_map",Json.object (m.imports.map fun (k,v) => (k,.string v)))]
    | none => []
  let document := match r.document with
    | some html => [("document",Json.string html)]
    | none => []
  .object
    ([("ok",.bool r.error.isNone),("root",.string r.root),("entry",entry),
      ("modules",.array (r.modules.map ModuleReport.toJson)),
      ("packages",.array (r.packages.map Json.string))]
      ++ importMap ++ document
      ++ [("error",error),("notes",.array (r.notes.map Json.string))])

def lines (r : CheckReport) : List String :=
  let plural := if r.modules.length = 1 then "" else "s"
  let packages :=
    if r.packages.isEmpty then [] else ["  Packages: " ++ ", ".intercalate r.packages]
  let importMap := match r.importMap with
    | some m => "" :: m.imports.map fun (k,v) => "  " ++ k ++ " -> " ++ v
    | none => []
  let document := match r.document with
    | some html => ["",html]
    | none => []
  ["  Compiled " ++ toString r.modules.length ++ " module" ++ plural
      ++ " (entry " ++ r.entry.getD "-" ++ ")"]
    ++ r.modules.map ModuleReport.line ++ packages ++ r.notes.map ("  " ++ ·) ++ importMap ++ document

def text (r : CheckReport) : String := String.join (r.lines.map (· ++ "\n"))

end CheckReport

end PreviewCompiler.Command
