import PreviewCompiler.Script.Grammar.Value

namespace PreviewCompiler.Script.Grammar

open Parse

def arguments (g : Rules) (ofImport : Bool) : Parse (List Node) :=
  withFlags (fun f => { f with expectColon := false }) do
    let start ← here
    expect "("
    let args ← iterate ([] : List Node) fun found => do
      if (← atEnd) || (← sees ")") then return (found,false)
      else
        if !found.isEmpty then expect ","
        if !found.isEmpty && (← sees ")") then
          if ofImport && !(← isTyped) then refuse (← spanFrom start) .importTrailingComma
          return (found,false)
        else return ((← allowingIn true (spreadable g)) :: found,true)
    expect ")"
    return args.reverse

/-- Is this value part of a chain that ends early at a missing object? -/
def isChain : Node → Bool
  | .chain .. => true
  | .typed _ v => isChain v
  | _ => false

/-- An access as a link of a chain if it is one: `question` is written, or the object is a chain. -/
def link (question : Bool) (object access : Node) : Node :=
  if question || isChain object then .chain access.span question access else access

def checkSuper (object : Node) (question : Bool) : Parse Unit := do
  match object with
  | .superWord span => if !(← flags).inMethod || question then refuse span .superMisplaced
  | _ => return ()

def endsTypeArguments : Parse Bool := do
  match ← token? with
  | some t =>
    if ["<",">","+","-","(","`"].any t.isSpelled then return false
    else return (← afterLineBreak) || t.isBinary || !t.startsExpression
  | none => return true

/-- A call or a template behind type arguments. -/
def typedCall? (g : Rules) (start : Nat) (noCall : Bool) (object : Node) : Parse (Option Node) :=
  attempt do
    typeArguments g
    if !noCall && (← sees "(") then
      let args ← arguments g false
      return some (link false object (.call (← spanFrom start) object args))
    else if ← sees "`" then
      let text ← templateValue g true
      return some (.tagged (← spanFrom start) object text)
    else return none

def asyncGeneric? (g : Rules) (start : Nat) (object : Node) : Parse (Option Node) := do
  match object with
  | .ident ⟨"async",_,_⟩ =>
    attempt do
      typeParameters g
      let (items,comma) ← parenItems g
      let _ ← arrowResult? g
      return some (← arrowFrom g start true items comma)
  | _ => return none

def eatQuestionDot : Parse Bool := do
  if ← (sees "?" <&&> foresees ".") then
    let _ ← advance
    return true
  else return false

def access (g : Rules) (noCall : Bool) (object : Node) : Parse (Node × Bool) := do
  let start := object.span.lo
  if !(← atEnd) then
    let _ ← token
  if ← isTyped then
    if !(← afterLineBreak) && (← sees "!") then
      modify fun r => { r with lexer := { r.lexer with operandExpected := false } }
      let _ ← advance
      return (.typed (← spanFrom start) object,true)
    if ← sees "<" then
      if !noCall then
        match ← asyncGeneric? g start object with
        | some arrow => return (arrow,false)
        | none => pure ()
      match ← typedCall? g start noCall object with
      | some call => return (call,true)
      | none => pure ()
  let question ← eatQuestionDot
  let bracketed ← if question then do
      if ← foresees "[" then
        expect "."
        eat "["
      else pure false
    else eat "["
  if bracketed then
    checkSuper object question
    let key ← allowingIn true g.sequence
    expect "]"
    return (link question object (.index (← spanFrom start) object key),true)
  let called ← if question then do
      if ← (foresees "(" <||> (isTyped <&&> foresees "<")) then eat "." else pure false
    else pure (!noCall && (← sees "("))
  if called then
    if question && (← isTyped) then typeArguments? g
    let ofImport := match object with
      | .importWord _ => true
      | _ => false
    let args ← arguments g ofImport
    return (link question object (.call (← spanFrom start) object args),true)
  if ← (eat "." <||> pure question) then
    checkSuper object question
    let name ← memberName
    return (link question object (.member (← spanFrom start) object name),true)
  match object with
  | .superWord span => refuse span .superMisplaced
  | .importWord span => refuse span .importMisplaced
  | _ =>
    if ← sees "`" then
      if isChain object then note (← hereSpan) .templateInChain
      let text ← templateValue g true
      return (.tagged (← spanFrom start) object text,true)
    else return (object,false)

def accesses (g : Rules) (noCall : Bool) (object : Node) : Parse Node :=
  iterate object (access g noCall)

def importValue (g : Rules) (noCall : Bool) : Parse Node := do
  let start ← here
  expect "import"
  if ← eat "." then
    if ← eat "meta" then accesses g noCall (.importMeta (← spanFrom start))
    else unexpected "meta"
  else accesses g noCall (.importWord (← spanFrom start))

def construction (g : Rules) (afterNew : Bool) : Parse Node := do
  let start ← here
  expect "new"
  if ← eat "." then
    if ← eat "target" then
      let span ← spanFrom start
      let f ← flags
      if !f.inPlainFunction && !f.inParameters && !f.inClass then note span .newTargetMisplaced
      return ← accesses g true (.newTarget span)
    else unexpected "target"
  let callee ← g.member true
  if ← isArrowHead callee then return callee
  match callee with
  | .chain span true _ => refuse span .newOnChain
  | _ => pure ()
  let arguments? ← if (← isTyped) && (← sees "<") then
      attempt do
        typeArguments g
        return some (← arguments g false)
    else pure none
  match arguments? with
  | some args => accesses g true (.construct (← spanFrom start) callee args true)
  | none =>
    if ← sees "(" then
      let args ← arguments g false
      accesses g true (.construct (← spanFrom start) callee args true)
    else if afterNew then return .construct (← spanFrom start) callee [] false
    else accesses g true (.construct (← spanFrom start) callee [] false)

def member (g : Rules) (afterNew : Bool) : Parse Node := do
  if ← sees "new" then return ← construction g afterNew
  if ← sees "super" then
    let span ← hereSpan
    let _ ← advance
    return ← accesses g true (.superWord span)
  if ← sees "import" then return ← importValue g true
  let value ← primary g
  if ← isArrowHead value then return value
  let applied ← if (← isTyped) && (← sees "<") then
      attempt do
        typeArguments g
        if ← endsTypeArguments then return some () else return none
    else pure none
  let value ← match applied with
    | some () => pure (.typed (← spanFrom value.span.lo) value)
    | none => pure value
  accesses g true value

def leftHand (g : Rules) : Parse Node := do
  let start ← here
  if (← dialect).markup then
    match ← token with
    | .tagText value _ =>
      let _ ← advance
      return .tagText (← spanFrom start) value
    | .tagOpen => return ← g.markup
    | t => if ← (pure (t.isSpelled "<") <&&> notM (foresees "!")) then return ← g.markup
  if ← sees "super" then
    let span ← hereSpan
    let _ ← advance
    return ← accesses g false (.superWord span)
  if ← sees "import" then return ← importValue g false
  let callee ← g.member false
  if ← isArrowHead callee then return callee
  match callee with
  | .construct _ _ _ false => return callee
  | _ => accesses g false callee

def unaryMarks : List String := ["+","-","~","!"]

def unaryWords : List String := ["delete","void","typeof"]

def awaited (g : Rules) : Parse Node := do
  let start ← here
  expect "await"
  let span ← spanFrom start
  if ← sees "*" then refuse (← hereSpan) .awaitStar
  let f ← flags
  if (← seesAny [")","]",";",","]) && !f.inAsync then
    note span .awaitName
    return .ident ⟨"await",span,0⟩
  if f.inFunction && !f.inAsync then note span .awaitOutsideAsync
  if f.inParameters && !f.inFunction then note span .awaitInParameter
  let value ← g.operand
  return .await (← spanFrom start) value

def unaryOperand (g : Rules) : Parse Node := do
  let start := (← here) - 1
  tryCatch g.operand fun fault => do
    note fault.span fault.cause
    return .invalid (Span.point start)

def deleted (operand : Node) : Parse Unit := do
  match operand with
  | .ident id => note id.span .deleteIdentifier
  | _ => pure ()
  if ← isTyped then
    match withoutParens operand with
    | .member .. | .index .. | .chain .. => return ()
    | _ => note operand.span .deleteOperand
where
  withoutParens : Node → Node
    | .paren _ v => withoutParens v
    | v => v

def assertion (g : Rules) : Parse Node := do
  let start ← here
  expect "<"
  if ← eat "const" then expect ">"
  else
    inType g.type
    expect ">"
  let value ← g.operand
  return .typed (← spanFrom start) value

def updated (g : Rules) : Parse Node := do
  let value ← leftHand g
  if ← isArrowHead value then return value
  if ← afterLineBreak then return value
  match ← token? with
  | some (.mark m) =>
    if m == "++" || m == "--" then
      checkReference value
      let _ ← advance
      return .update ⟨value.span.lo,(← previousSpan).hi⟩ m false value
    else return value
  | _ => return value

def operand (g : Rules) : Parse Node := do
  let start ← here
  let d ← dialect
  if d.types && !d.markup && (← sees "<") then return ← assertion g
  match ← token? with
  | some (.mark m) =>
    if m == "++" || m == "--" then
      let _ ← advance
      let value ← g.operand
      checkReference value
      return .update ⟨start,value.span.hi⟩ m true value
    else if unaryMarks.contains m then
      let _ ← advance
      let value ← unaryOperand g
      return .unary ⟨start,value.span.hi⟩ m value
    else updated g
  | some (.word w) =>
    if unaryWords.contains w then
      let _ ← advance
      let value ← unaryOperand g
      if w == "delete" then deleted value
      return .unary ⟨start,value.span.hi⟩ w value
    else if w == "await" then awaited g
    else updated g
  | _ => updated g

end PreviewCompiler.Script.Grammar
