import PreviewCompiler.Script.Reader
import PreviewCompiler.Script.Erasure
import PreviewCompiler.Script.Lowering
import PreviewCompiler.Script.Naming
import PreviewCompiler.Script.Grouping
import PreviewCompiler.Script.Printer
import PreviewCompiler.Script.Specifier

namespace PreviewCompiler

open Script

structure TransformOptions where
  runtime : MarkupRuntime := .automatic
  /-- The package whose runtime creates elements. -/
  importSource : String := "react"
  minify : Bool := false
  deriving DecidableEq, Repr

namespace Script

def Program.lower (p : Program) (dialect : Dialect) (options : TransformOptions) : Program :=
  let m := p.module.resolve
  let m := if dialect.types then m.erase else m
  if dialect.markup then
    let (m,comments) := m.lowerMarkup options.runtime options.importSource p.comments
    ⟨m,comments⟩
  else ⟨m,p.comments⟩

def Program.print (p : Program) (minify : Bool) : String :=
  let (m,comments) := p.module.withNaming.regroup p.comments
  m.print minify comments

end Script

end PreviewCompiler
