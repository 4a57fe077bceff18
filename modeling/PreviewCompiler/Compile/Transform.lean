import PreviewCompiler.Compile.Linking
import PreviewCompiler.Hash.Fingerprint
import PreviewCompiler.Json.Printer
import PreviewCompiler.Json.Reader

namespace PreviewCompiler

open Script

/-- A compiled file: the text of a module in which other modules of the project are placeholders. -/
structure Template where
  path : String
  text : String
  links : Links
  sourceHash : String
  deriving DecidableEq, Repr

namespace Template

def ofScript (s : Surroundings) (dialect : Dialect) (options : TransformOptions) (content : String) :
    Except CompileError (String × Links) :=
  let source := content.toList
  if Text.allBlank source then return ("",{})
  else
    match Program.read dialect source with
    | .error f =>
      let place := Place.of source f.span.lo
      throw (.syntaxError s.importer f.cause.message (some place.line) (some place.column))
    | .ok p => do
      let (p,links) ← s.linkProgram (p.lower dialect options)
      return (p.print options.minify,links)

def ofJson (path content : String) : Except CompileError String :=
  match Json.parse content with
  | .ok v => return "export default " ++ v.sorted.compact ++ ";\n"
  | .error f =>
    throw (.syntaxError path f.message (f.place.map (·.line)) (f.place.map (·.column)))

def compile (files : FileSet) (redirects : Redirects) (options : TransformOptions)
    (path content : String) : Except CompileError Template := do
  let (text,links) ← match SourceKind.ofPath path with
    | .script isTyped hasMarkup =>
      ofScript ⟨path,files,redirects⟩ ⟨isTyped,hasMarkup⟩ options content
    | .json => (·,{}) <$> ofJson path content
    | .style | .other => throw (.unsupportedModule path path path)
  return ⟨path,text,links,textHash content⟩

end Template

end PreviewCompiler
