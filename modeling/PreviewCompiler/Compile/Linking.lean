import PreviewCompiler.Compile.Error
import PreviewCompiler.Compile.Placeholder
import PreviewCompiler.Compile.Resolution
import PreviewCompiler.Compile.SourceKind
import PreviewCompiler.Package.Redirects
import PreviewCompiler.Script.Compile

namespace PreviewCompiler

open Script

structure Links where
  /-- The modules of the project; the `i`-th one belongs to placeholder `i`. -/
  modules : List String := []
  /-- The packages, sorted. -/
  packages : List PackageSpec := []
  deriving DecidableEq, Repr

namespace Links

/-- The number of a module, which is added if it is new. -/
def indexOf (path : String) (links : Links) : Nat × Links :=
  match links.modules.findIdx? (· == path) with
  | some i => (i,links)
  | none => (links.modules.length,{ links with modules := links.modules ++ [path] })

end Links

abbrev Linking := StateT Links (Except CompileError)

structure Surroundings where
  importer : String
  files : FileSet
  redirects : Redirects

namespace Surroundings

/-- The text that is put in the place of a specifier, if any. -/
def link (s : Surroundings) (specifier : String) : Linking (Option String) := do
  if Resolution.isUrl specifier then return none
  match Resolution.resolve s.files specifier s.importer with
  | .file path =>
    unless Path.isModule path do throw (.unsupportedModule specifier s.importer path)
    return some (placeholder (← modifyGet (Links.indexOf path)))
  | .package p =>
    modify fun links => { links with packages := p.insert links.packages }
    return some (s.redirects.urlFor p)
  | .nothing => throw (.resolution specifier s.importer)

/-- Is an item an import of nothing from a stylesheet, which is not needed? -/
def isStyleImport (s : Surroundings) (n : Node) : Except CompileError Bool :=
  match n with
  | .importDecl _ _ [] source _ =>
    match source.stringValue? with
    | some specifier =>
      if Path.isStylesheet specifier then
        match Resolution.resolve s.files specifier s.importer with
        | .nothing => throw (.resolution specifier s.importer)
        | _ => return true
      else return false
    | none => return false
  | _ => return false

def dropStyleImports (s : Surroundings) : List Node → Except CompileError (List Node)
  | [] => return []
  | n :: ns => do
    let isStyle ← s.isStyleImport n
    let rest ← s.dropStyleImports ns
    return if isStyle then rest else n :: rest

def linkItems (s : Surroundings) (items : List Node) : Linking (List Node) := do
  let items ← s.dropStyleImports items
  items.mapM (Node.mapSpecifiers s.link)

/-- Put a placeholder in the place of each specifier that names a module of the project, and its address in
that of each that names a package.  An import of nothing from a stylesheet is dropped: styles are collected
apart. -/
def linkProgram (s : Surroundings) (p : Program) : Except CompileError (Program × Links) := do
  let (body,links) ← (s.linkItems p.module.body).run {}
  return ({ p with module := { p.module with body := body } },links)

end Surroundings

end PreviewCompiler
