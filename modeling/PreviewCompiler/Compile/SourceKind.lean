import PreviewCompiler.Files.Path

namespace PreviewCompiler

inductive SourceKind where
  | script (isTyped hasMarkup : Bool)
  | json
  | style
  | other
  deriving DecidableEq, Repr

namespace SourceKind

def ofExtension : Option String → SourceKind
  | some ".jsx" | some ".js" | some ".mjs" => script false true
  | some ".tsx" => script true true
  | some ".ts" | some ".mts" => script true false
  | some ".json" => json
  | some ".css" => style
  | _ => other

def ofPath (path : String) : SourceKind := ofExtension (Path.extension? path)

def isModule : SourceKind → Bool
  | script .. | json => true
  | style | other => false

end SourceKind

namespace Path

def isModule (path : String) : Bool := (SourceKind.ofPath path).isModule

def isStylesheet (path : String) : Bool := SourceKind.ofPath path == .style

end Path

end PreviewCompiler
