import PreviewCompiler.Script.Printer.Value

namespace PreviewCompiler.Script

namespace Write

variable (emit : Node → Write Unit)

def VariableKind.word : VariableKind → String
  | .var => "var"
  | .let => "let"
  | .const => "const"

def startsWithBracket : List Node → Bool
  | .declarator _ (.arrayPattern ..) _ :: _ | .declarator _ (.objectPattern ..) _ :: _ => true
  | _ => false

/-- A declaration of variables without its semicolon. -/
def variableDecl : Node → Write Unit
  | .variableDecl _ kind _ ds => do
    text (VariableKind.word kind)
    gapBefore (!startsWithBracket ds)
    commaList emit ds
  | n => emit n

def declarator (target : Node) (init : Option Node) : Write Unit := do
  emit target
  match init with
  | some v =>
    gap
    text "="
    gap
    emit v
  | none => pure ()

def semicolon : Write Unit := text ";"

def jump (word : String) (label : Option Ident) : Write Unit := do
  text word
  match label with
  | some id => text (" " ++ id.name)
  | none => pure ()
  semicolon

def isBlock : Node → Bool
  | .block .. => true
  | _ => false

def ifStatement (test yes : Node) (no : Option Node) : Write Unit := do
  text "if"
  gap
  text "("
  emit test
  text ")"
  gap
  emit yes
  match no with
  | some no =>
    if isBlock yes then gap else line
    text "else"
    gapBefore no.startsWithWord
    emit no
  | none => pure ()

def loopOver (left : Node) (word : String) (right : Node) : Write Unit := do
  variableDecl emit left
  gapBefore (word == "of" || left.endsWithWord || !isPattern left)
  text word
  gapBefore right.startsWithWord
  emit right
  text ")"
where
  isPattern : Node → Bool
    | .variableDecl _ _ _ ds => startsWithBracket ds
    | .arrayPattern .. | .objectPattern .. => true
    | _ => false

def switchCase (test : Option Node) (body : List Node) : Write Unit := do
  match test with
  | some t =>
    text "case"
    gapBefore t.startsWithWord
    emit t
    text ":"
  | none => text "default:"
  line
  indented (body.forM fun n => do
    emit n
    line)

/-- A statement; what is no statement is written as a value. -/
def statement : Node → Write Unit
  | .exprStatement _ e => do
    emit e
    semicolon
  | .empty _ => semicolon
  | .block s body => blockBody emit s body
  | .variableDecl s kind d ds => do
    variableDecl emit (.variableDecl s kind d ds)
    semicolon
  | .declarator _ target init => declarator emit target init
  | .functionDecl _ name f => functionHead emit name f
  | .classDecl _ name c => classHead emit name c
  | .returnStatement _ v => do
    text "return"
    match v with
    | some v => jumpValue emit v
    | none => pure ()
    semicolon
  | .throwStatement _ v => do
    text "throw"
    jumpValue emit v
    semicolon
  | .ifStatement _ test yes no => ifStatement emit test yes no
  | .whileStatement _ test body => do
    text "while("
    emit test
    text ")"
    emit body
  | .doStatement _ body test => do
    text "do"
    gapBefore body.startsWithWord
    emit body
    text "while"
    gap
    text "("
    emit test
    text ")"
    semicolon
  | .forStatement _ init test update body => do
    text "for("
    init.forM (variableDecl emit)
    text ";"
    test.forM fun n => do
      gap
      emit n
    text ";"
    update.forM fun n => do
      gap
      emit n
    text ")"
    emit body
  | .forIn _ left right body => do
    text "for("
    loopOver emit left "in" right
    emit body
  | .forOf _ isAwait left right body => do
    text "for"
    if isAwait then text " await"
    gap
    text "("
    loopOver emit left "of" right
    emit body
  | .tryStatement _ block handler finalizer => do
    text "try"
    gap
    emit block
    handler.forM fun n => do
      gap
      emit n
    finalizer.forM fun n => do
      gap
      text "finally"
      gap
      emit n
  | .catchClause _ param body => do
    text "catch"
    param.forM fun p => do
      gap
      text "("
      emit p
      text ")"
    gap
    emit body
  | .switchStatement _ subject cases => do
    text "switch("
    emit subject
    text ")"
    text r"{"
    line
    indented (cases.forM emit)
    text r"}"
  | .switchCase _ test body => switchCase emit test body
  | .breakStatement _ label => jump "break" label
  | .continueStatement _ label => jump "continue" label
  | .labelled _ label body => do
    text (label.name ++ ":")
    gap
    emit body
  | .debuggerStatement _ => do
    text "debugger"
    semicolon
  | .classMethod _ kind isStatic _ key f => do
    if isStatic then
      text "static"
      gapBefore key.startsWithWord
    methodTail emit kind key f
  | .classField _ isStatic _ key v => do
    if isStatic then
      text "static"
      gapBefore key.startsWithWord
    emit key
    match v with
    | some v =>
      gap
      text "="
      gap
      emit v
    | none => pure ()
    semicolon
  | .staticBlock _ body => do
    text "static"
    gap
    emit body
  | n => value emit n

def attributes (facts : Option Node) : Write Unit :=
  facts.forM fun n => do
    gap
    text "with"
    gap
    emit n

def renamed (outer inner : Write Unit) : Write Unit := do
  outer
  text " as "
  inner

def isNamed : Node → Bool
  | .importNamed .. | .exportSpecifier .. => true
  | _ => false

/-- What an import names in front of its names in braces. -/
def importHead : List Node → Write Unit
  | [] => pure ()
  | [n] => emit n
  | n :: ns => do
    emit n
    text ","
    gap
    importHead ns

def importDecl (specifiers : List Node) (source : Node) (facts : Option Node) : Write Unit := do
  text "import"
  gapBefore (match specifiers with
    | .importDefault .. :: _ => true
    | _ => false)
  let (named,others) := specifiers.partition isNamed
  importHead emit others
  if named.isEmpty then
    unless others.isEmpty do
      text " from"
      gap
  else
    unless others.isEmpty do
      text ","
      gap
    braced emit named
    gap
    text "from"
    gap
  emit source
  attributes emit facts
  semicolon

def exportNamed (specifiers : List Node) (source : Option Node) (facts : Option Node) :
    Write Unit := do
  text "export"
  gap
  let (named,others) := specifiers.partition isNamed
  importHead emit others
  unless named.isEmpty && !others.isEmpty do
    unless others.isEmpty do
      text ","
      gap
    if named.isEmpty then
      text r"{"
      gap
      text r"}"
    else braced emit named
  match source with
  | some s =>
    gapBefore named.isEmpty
    text "from"
    gap
    emit s
  | none => pure ()
  attributes emit facts
  semicolon

/-- An item of a module; what is no item is written as a statement. -/
def item : Node → Write Unit
  | .importDecl _ _ specifiers source facts => importDecl emit specifiers source facts
  | .importDefault _ id => text id.name
  | .importNamespace _ id => do
    text "*"
    gap
    text ("as " ++ id.name)
  | .importNamed _ id imported _ =>
    match imported with
    | some n => renamed (emit n) (text id.name)
    | none => text id.name
  | .exportNamed _ _ specifiers source facts => exportNamed emit specifiers source facts
  | .exportSpecifier _ inner exported _ =>
    match exported with
    | some n => renamed (emit inner) (emit n)
    | none => emit inner
  | .exportNamespace _ name => do
    text "*"
    gap
    text "as "
    emit name
  | .exportAll _ _ source facts => do
    text "export"
    gap
    text "*"
    gap
    text "from"
    gap
    emit source
    attributes emit facts
    semicolon
  | .exportDecl _ d => do
    text "export "
    emit d
  | .exportDefaultDecl _ d => do
    text "export default "
    emit d
  | .exportDefault _ e => do
    text "export default"
    gapBefore e.startsWithWord
    emit e
    semicolon
  | n => statement emit n

end Write

end PreviewCompiler.Script
