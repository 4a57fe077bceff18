import PreviewCompiler.Script.Grammar.Item

namespace PreviewCompiler.Script

open Parse

namespace Grammar

/-- The rules down to a nesting depth, at the end of which the source is refused; only a nesting deeper than
the source has characters gets there. -/
def rules : (depth : Nat) → Rules
  | 0 =>
    let tooDeep {α : Type} : Parse α := do throw ⟨← hereSpan,.tooDeep⟩
    { sequence := tooDeep, assignment := tooDeep, operand := tooDeep
      operators := fun _ _ => tooDeep, member := fun _ => tooDeep, leftHand := tooDeep
      statement := fun _ => tooDeep, target := fun _ => tooDeep
      retarget := fun _ _ => tooDeep, markup := tooDeep, type := tooDeep }
  | n + 1 =>
    { sequence := fun r => Grammar.sequence (rules n) r
      assignment := fun r => Grammar.assignment (rules n) r
      operand := fun r => Grammar.operand (rules n) r
      operators := fun left least r => Grammar.operators (rules n) left least r
      member := fun afterNew r => Grammar.member (rules n) afterNew r
      leftHand := fun r => Grammar.leftHand (rules n) r
      statement := fun declarations r => Grammar.statement (rules n) declarations r
      target := fun denyLet r => Grammar.target (rules n) denyLet r
      retarget := fun kind value r => Grammar.retarget (rules n) kind value r
      markup := fun r => Grammar.markup (rules n) r
      type := fun r => Grammar.typeExpression (rules n) r }

end Grammar

/-- A module that was read, with the comments of its source. -/
structure Program where
  module : Module
  comments : Comments
  deriving Inhabited

/-- Read a module, or tell the fault that stopped the reading, or else the first one that was noted. -/
def Program.read (dialect : Dialect) (source : List Char) : Except Fault Program :=
  let (shebang,lexer) := (Lexer.ofSource source).readShebang
  let depth := 8 * (source.length + 4)
  let reading : Reading := { dialect := dialect, source := source, lexer := lexer }
  match Grammar.moduleBody (Grammar.rules depth) reading with
  | .error fault _ => .error fault
  | .ok (start,items) r =>
    match r.lexer.faults.getLast? with
    | some fault => .error fault
    | none =>
      .ok ⟨⟨⟨start,r.previousSpan.hi⟩,shebang,items⟩,r.lexer.comments⟩

end PreviewCompiler.Script
