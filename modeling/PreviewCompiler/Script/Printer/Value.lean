import PreviewCompiler.Script.Printer.Basic

namespace PreviewCompiler.Script

namespace Node

def startsWithWord : Node → Bool
  | ident _ | keyName .. | thisWord _ | superWord _ | importWord _ | importMeta _ | newTarget _
  | function .. | classValue .. | construct .. | await .. | yield .. | functionDecl .. | classDecl ..
  | variableDecl .. | returnStatement .. | ifStatement .. | whileStatement .. | doStatement ..
  | forStatement .. | forIn .. | forOf .. | throwStatement .. | tryStatement .. | switchStatement ..
  | breakStatement .. | continueStatement .. | labelled .. | debuggerStatement _ => true
  | literal _ (.string ..) | literal _ (.regex ..) => false
  | literal .. => true
  | arrow _ isAsync params _ => isAsync || match params with
    | [ident _] => true
    | _ => false
  | unary _ op _ => op == "typeof" || op == "void" || op == "delete"
  | update _ _ leads arg => !leads && startsWithWord arg
  | binary _ _ left _ => startsWithWord left
  | assign _ _ target _ => startsWithWord target
  | conditional _ test _ _ => startsWithWord test
  | member _ o _ | index _ o _ => startsWithWord o
  | call _ callee _ => startsWithWord callee
  | chain _ _ base => startsWithWord base
  | tagged _ tag _ => startsWithWord tag
  | sequence _ (e :: _) => startsWithWord e
  | exprStatement _ e => startsWithWord e
  | _ => false

def endsWithWord : Node → Bool
  | ident _ | keyName .. | privateName .. | thisWord _ | superWord _ | importMeta _ | newTarget _ =>
    true
  | literal _ (.string ..) => false
  | literal _ (.regex _ flags) => !flags.isEmpty
  | literal .. => true
  | unary _ _ arg | await _ arg => endsWithWord arg
  | update _ _ leads arg => leads && endsWithWord arg
  | binary _ _ _ right => endsWithWord right
  | assign _ _ _ value => endsWithWord value
  | conditional _ _ _ no => endsWithWord no
  | member _ _ name => endsWithWord name
  | chain _ _ base => endsWithWord base
  | construct _ callee _ hasArgs => !hasArgs && endsWithWord callee
  | _ => false

/-- Would `op` and the sign that a value starts with read as one operator? -/
def joinsSign (op : String) : Node → Bool
  | unary _ inner _ | update _ inner true _ =>
    (op == "+" || op == "-") && inner.toList.head? == op.toList.head?
  | binary _ _ left _ => joinsSign op left
  | _ => false

/-- Must a jump put its value in parentheses, lest a comment in front of the value end the line? -/
def breaksLine (comments : Comments) (n : Node) : Bool :=
  (comments.leadingAt n.span.lo).any fun c => !c.isBlock || c.text.contains '\n'

end Node

namespace Write

variable (emit : Node → Write Unit)

/-- Nodes on one line with commas between them; a hole at the end has a comma of its own. -/
def commaList : List Node → Write Unit
  | [] => pure ()
  | [.hole] => text ","
  | [n] => emit n
  | n :: ns => do
    emit n
    text ","
    gap
    commaList ns

def commaLines : List Node → Write Unit
  | [] => pure ()
  | [.hole] => text ","
  | [n] => emit n
  | n :: ns => do
    emit n
    text ","
    lineEnd
    commaLines ns

/-- Nodes between brackets, in the wide style each on a line of its own. -/
def bracketed (opening closing : String) (ns : List Node) : Write Unit := do
  text opening
  unless ns.isEmpty do
    if ← isBrief then commaList emit ns
    else
      lineEnd
      indented (commaLines emit ns)
      lineEnd
  text closing

def braced (ns : List Node) : Write Unit := do
  text r"{"
  unless ns.isEmpty do
    gap
    commaList emit ns
    gap
  text r"}"

def args (ns : List Node) : Write Unit := do
  text "("
  commaList emit ns
  text ")"

/-- The statements between braces; comments in front of the closing brace come behind them. -/
def blockBody (span : Span) (body : List Node) : Write Unit := do
  leading span.lo
  text r"{"
  let hasComments := !((← get).comments.leadingAt (span.hi - 1)).isEmpty
  unless body.isEmpty do
    line
    indented (body.forM fun n => do
      emit n
      line)
  if hasComments then
    line
    leading (span.hi - 1)
  text r"}"

def functionTail (params : List Node) (body : Option Node) : Write Unit := do
  args emit params
  match body with
  | some b =>
    gap
    emit b
  | none => text ";"

/-- A function; `name` is that of a declaration. -/
def functionHead (name : Option Ident) : Node → Write Unit
  | .function _ own isAsync isGenerator params body => do
    if isAsync then text "async "
    text "function"
    if isGenerator then text "*"
    match name <|> own with
    | some id =>
      gapBefore (!isGenerator)
      text id.name
    | none => pure ()
    functionTail emit params body
  | _ => pure ()

/-- A function with a key in place of a name. -/
def methodTail (kind : MethodKind) (key : Node) : Node → Write Unit
  | .function _ _ isAsync isGenerator params body => do
    if isAsync then
      text "async"
      gapBefore (!isGenerator && key.startsWithWord)
    if isGenerator then text "*"
    match kind with
    | .getter =>
      text "get"
      gapBefore key.startsWithWord
    | .setter =>
      text "set"
      gapBefore key.startsWithWord
    | _ => pure ()
    emit key
    functionTail emit params body
  | _ => pure ()

def classHead (name : Option Ident) : Node → Write Unit
  | .classValue _ own superclass members => do
    text "class"
    match name <|> own with
    | some id => text (" " ++ id.name)
    | none => pure ()
    match superclass with
    | some sup =>
      text " extends"
      gapBefore sup.startsWithWord
      emit sup
    | none => pure ()
    gap
    text r"{"
    line
    indented (members.forM fun n => do
      emit n
      line)
    text r"}"
  | _ => pure ()

def literal : Literal → Write Unit
  | .null => text "null"
  | .bool value => text (if value then "true" else "false")
  | .number raw => do text (if ← isBrief then Numeral.brief raw else raw)
  | .bigint raw => text raw
  | .string value raw => do
    match raw with
    | some raw => text (if ← isBrief then quoted value else raw)
    | none => text (quoted value)
  | .regex body flags => text ("/" ++ body ++ "/" ++ flags)

def templateParts : List String → List Node → Write Unit
  | t :: ts, v :: vs => do
    text t
    text r"${"
    emit v
    text r"}"
    templateParts ts vs
  | ts, _ => text (String.join ts)

/-- A value whose member follows.  A construction needs its parentheses there, and digits need a point
lest the next one be theirs. -/
def memberObject : Node → Write Unit
  | .construct span callee params true => do
    leading span.lo
    text "new"
    gapBefore callee.startsWithWord
    emit callee
    args emit params
    trailing span.hi
  | .literal span (.number raw) => do
    emit (.literal span (.number raw))
    let written := if ← isBrief then Numeral.brief raw else raw
    if written.toList.all Char.isDigit && !(written.length ≥ 2 && written.startsWith "0") then text "."
  | n => emit n

def operator (op : String) (left right : Node) : Write Unit := do
  let isWord := op == "in" || op == "instanceof"
  if ← isBrief then
    if isWord && left.endsWithWord then blank
    text op
    let touches := if isWord then right.startsWithWord else right.joinsSign op
    if touches then blank
  else text (" " ++ op ++ " ")

def jumpValue (value : Node) : Write Unit := do
  if value.breaksLine (← get).comments then
    text "("
    emit value
    text ")"
  else
    gapBefore value.startsWithWord
    emit value

def value : Node → Write Unit
  | .ident id | .shorthand id => text id.name
  | .keyName _ name => text name
  | .privateName _ name => text ("#" ++ name)
  | .computedName _ e => do
    text "["
    emit e
    text "]"
  | .thisWord _ => text "this"
  | .superWord _ => text "super"
  | .importWord _ => text "import"
  | .importMeta _ => text "import.meta"
  | .newTarget _ => text "new.target"
  | .literal _ v => literal v
  | .template _ ts vs => do
    text "`"
    templateParts emit ts vs
    text "`"
  | .tagged _ tag t => do
    emit tag
    emit t
  | .array _ es => bracketed emit "[" "]" es
  | .object _ ps => bracketed emit r"{" r"}" ps
  | .property k v => do
    emit k
    text ":"
    gap
    emit v
  | .shorthandDefault _ id v => do
    text id.name
    gap
    text "="
    gap
    emit v
  | .method _ kind key f => methodTail emit kind key f
  | .spread _ v | .rest _ v => do
    text "..."
    emit v
  | .function s name a g ps b => functionHead emit none (.function s name a g ps b)
  | .arrow _ isAsync params body => do
    let bare := (← isBrief) && match params with
      | [.ident _] => true
      | _ => false
    if isAsync then
      text "async"
      gapBefore bare
    if bare then commaList emit params else args emit params
    text "=>"
    match body with
    | .block .. => emit body
    | body => indented (emit body)
  | .classValue s name sup ms => classHead emit none (.classValue s name sup ms)
  | .unary _ op arg => do
    text op
    if op == "typeof" || op == "void" || op == "delete" then gapBefore arg.startsWithWord
    else if arg.joinsSign op then blank
    emit arg
  | .update _ op leads arg => do
    if leads then text op
    emit arg
    unless leads do text op
  | .binary _ op left right => do
    emit left
    operator op left right
    emit right
  | .assign _ op target v => do
    emit target
    gap
    text op
    gap
    emit v
  | .conditional _ test yes no => do
    emit test
    gap
    text "?"
    gap
    emit yes
    gap
    text ":"
    gap
    emit no
  | .member _ o name => do
    memberObject emit o
    text "."
    emit name
  | .index _ o key => do
    memberObject emit o
    text "["
    emit key
    text "]"
  | .call _ callee as => do
    emit callee
    args emit as
  | .construct _ callee as hasArgs => do
    text "new"
    gapBefore callee.startsWithWord
    emit callee
    if hasArgs && !(as.isEmpty && (← isBrief)) then args emit as
  | .chain _ optional base => do
    if optional then
      match base with
      | .member _ o name =>
        emit o
        text "?."
        emit name
      | .index _ o key =>
        emit o
        text "?.["
        emit key
        text "]"
      | .call _ callee as =>
        emit callee
        text "?."
        args emit as
      | base => emit base
    else emit base
  | .sequence _ es => commaList emit es
  | .paren _ e => do
    text "("
    emit e
    text ")"
  | .await _ e => do
    text "await "
    emit e
  | .yield _ delegate v => do
    text "yield"
    if delegate then text "*"
    match v with
    | some v =>
      gapBefore (!delegate && v.startsWithWord)
      emit v
    | none => pure ()
  | .typed _ v => emit v
  | .arrayPattern _ es => do
    text "["
    commaList emit es
    text "]"
  | .objectPattern _ ps => braced emit ps
  | .withDefault _ target v => do
    emit target
    gap
    text "="
    gap
    emit v
  | .shorthandPattern _ id v => do
    text id.name
    match v with
    | some v =>
      gap
      text "="
      gap
      emit v
    | none => pure ()
  | _ => pure ()

end Write

end PreviewCompiler.Script
