import PreviewCompiler.Script.Printer.Statement

namespace PreviewCompiler.Script

namespace Write

def node : (depth : Nat) → Node → Write Unit
  | 0, _ => pure ()
  | depth + 1, n => do
    leading n.span.lo
    item (node depth) n
    trailing n.span.hi

def module (m : Module) : Write Unit := do
  leading m.span.lo
  match m.shebang with
  | some s =>
    text ("#!" ++ s)
    lineEnd
  | none => pure ()
  m.body.forM fun n => do
    node n.depth n
    line
  trailing m.span.hi

end Write

def Module.print (m : Module) (isBrief : Bool) (comments : Comments) : String :=
  ((Write.module m).run { isBrief, comments }).2.out

end PreviewCompiler.Script
