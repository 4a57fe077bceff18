import PreviewCompiler.Script.Node

namespace PreviewCompiler.Script

namespace Node

variable {m : Type → Type} [Monad m]

/-- Put the text that `f` gives, if any, in the place of a string literal.  A new text has no written
form of the author's. -/
def mapString (f : String → m (Option String)) : Node → m Node
  | literal s (.string value raw) => do
    match ← f value with
    | some text => return literal s (.string text none)
    | none => return literal s (.string value raw)
  | n => return n

/-- The specifier of a call of `import`; only a string literal is one. -/
def mapCallSpecifier (f : String → m (Option String)) : Node → m Node
  | call s (importWord w) (first :: args) =>
    return call s (importWord w) ((← mapString f first) :: args)
  | n => return n

/-- Apply `f` to the specifiers below a node; one inside the arguments of a call comes before that of
the call. -/
def mapSpecifiers (f : String → m (Option String)) (n : Node) : m Node :=
  match n with
  | importDecl s false specifiers source facts =>
    return importDecl s false specifiers (← mapString f source) facts
  | exportNamed s false specifiers (some source) facts =>
    return exportNamed s false specifiers (some (← mapString f source)) facts
  | exportAll s false source facts => return exportAll s false (← mapString f source) facts
  | importDecl .. | exportNamed .. | exportAll .. => return n
  | n => do mapCallSpecifier f (← n.traverse fun part _ => mapSpecifiers f part)
termination_by sizeOf n

end Node

end PreviewCompiler.Script
