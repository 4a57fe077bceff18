import PreviewCompiler.Script.Grammar.Basic

namespace PreviewCompiler.Script.Grammar

open Parse

def isReserved (w : String) : Bool :=
  keywords.contains w || literalWords.contains w
    || ["enum","implements","package","protected","interface","private","public"].contains w

def isVariableWord : Token → Bool
  | .word w => !isReserved w
  | _ => false

def isWord : Token → Bool
  | .word _ => true
  | _ => false

def seesVariable : Parse Bool := return (← token?).any isVariableWord

def foreseesVariable : Parse Bool := return (← peek?).any isVariableWord

def seesWord : Parse Bool := return (← token?).any isWord

def foreseesWord : Parse Bool := return (← peek?).any isWord

def wordName : Parse (Span × String) := do
  let start ← here
  match ← token with
  | .word w =>
    let _ ← advance
    return (← spanFrom start,w)
  | .tagName name =>
    if (← flags).inType then
      let _ ← advance
      return (← spanFrom start,name)
    else refuse (← hereSpan) .identifierExpected
  | _ => refuse (← hereSpan) .identifierExpected

def keyName : Parse Node := do
  let (span,name) ← wordName
  return .keyName span name

def privateName : Parse Node := do
  let start ← here
  expect "#"
  let stop := (← previousSpan).hi
  if (← here) ≠ stop then refuse (← spanFrom start) .hashSpace
  let (_,name) ← wordName
  return .privateName (← spanFrom start) name

def memberName : Parse Node := do
  if ← sees "#" then privateName else keyName

/-- A variable; a reserved word is a fault. -/
def identifier (allowYield : Bool) : Parse Ident := do
  let start ← here
  match ← token with
  | .word w =>
    let _ ← advance
    let span ← previousSpan
    if ["enum","yield","static","implements","interface","let","package","private",
        "protected","public"].contains w then
      note span .strictName
    let f ← flags
    if w == "await" then
      if f.inDeclare then return ⟨w,span,0⟩
      else if f.inStaticBlock then refuse span .identifierExpected
      else refuse span .awaitName
    else if w == "this" && (← isTyped) then return ⟨w,span,0⟩
    else if w == "let" || (w == "yield" && allowYield) then return ⟨w,span,0⟩
    else if keywords.contains w || literalWords.contains w then refuse span .identifierExpected
    else
      if w == "arguments" && f.inClassField then note span .argumentsInField
      return ⟨w,← spanFrom start,0⟩
  | _ => refuse (← hereSpan) .identifierExpected

def identifierUse : Parse Ident := do
  identifier (!(← flags).inGenerator)

/-- Names that cannot be bound in a module. -/
def isUnbindable (name : String) : Bool := name == "eval" || name == "arguments"

def identifierBinding (denyLet : Bool) : Parse Ident := do
  if denyLet && (← sees "let") then
    unexpected "let is reserved in const, let, class declaration"
  let id ← identifier true
  if isUnbindable id.name then note id.span .strictBinding
  let f ← flags
  if (f.inAsync || f.inStaticBlock) && id.name == "await" then refuse id.span .identifierExpected
  if f.inGenerator && id.name == "yield" then refuse id.span .identifierExpected
  return id

def identifierBinding? (denyLet : Bool) : Parse (Option Ident) := do
  if (← seesVariable) || ((← isTyped) && (← sees "this")) then
    return some (← identifierBinding denyLet)
  else return none

def stringLiteral? : Parse (Option Node) := do
  match ← token? with
  | some (.string value raw) =>
    let span ← hereSpan
    let _ ← advance
    return some (.literal span (.string value (some raw)))
  | _ => return none

/-- The name under which a module exports something: a word or a string. -/
def exportName : Parse Node := do
  match ← stringLiteral? with
  | some s => return s
  | none =>
    if ← seesWord then keyName else unexpected "identifier or string"

end PreviewCompiler.Script.Grammar
