import PreviewCompiler.Script.Grammar.Operator

namespace PreviewCompiler.Script.Grammar

open Parse

def blockBody (g : Rules) : Parse (List Node) := do
  let body ← iterate ([] : List Node) fun found => do
    if ← atEnd then
      note (← hereSpan) (.expected r"}" "<eof>")
      return (found,false)
    else if ← sees r"}" then return (found,false)
    else return ((← g.statement true) :: found,true)
  let _ ← eat r"}"
  return body.reverse

def block (g : Rules) : Parse Node := do
  let start ← here
  expect r"{"
  let body ← blockBody g
  return .block (← spanFrom start) body

/-- Read the body of a function: labels outside of it are out of reach. -/
def insideFunction {α : Type} (isAsync isGenerator isArrow : Bool) (p : Parse α) : Parse α :=
  withoutLabels (withFlags
    (fun f => { f with
      inAsync := isAsync
      inGenerator := isGenerator
      inFunction := true
      inParameters := false
      inStaticBlock := false
      inPlainFunction := f.inPlainFunction || !isArrow
      breakAllowed := false
      continueAllowed := false }) p)

def arrowBody (g : Rules) (isAsync : Bool) : Parse Node :=
  insideFunction isAsync false true do
    if ← sees r"{" then block g else g.assignment

/-- The body of a function; where types are read, it may be missing. -/
def functionBody (g : Rules) (isAsync isGenerator : Bool) : Parse (Option Node) :=
  insideFunction isAsync isGenerator false do
    if ← (isTyped <&&> notM (sees r"{") <&&> eatEnd) then return none
    else withFlags (fun f => { f with allowIn := true }) (some <$> block g)

def functionTail (g : Rules) (start : Nat) (name : Option Ident) (isAsync isGenerator : Bool)
    (check : List Node → Parse Unit) : Parse Node :=
  withFlags (fun f => { f with inAsync := isAsync, inGenerator := isGenerator }) do
    if ← isTyped then typeParameters? g
    expect "("
    let params ← withFlags (fun f => { f with inParameters := true, inFunction := false })
      (parameters g)
    check params
    expect ")"
    resultType? g
    let body ← functionBody g isAsync isGenerator
    return .function (← spanFrom start) name isAsync isGenerator params body

/-- A function that starts with its keyword, or with `async` in front of that. -/
def functionFrom (g : Rules) (isAsync isExpression nameRequired : Bool) : Parse Node := do
  let start ← here
  if isAsync then expect "async"
  expect "function"
  let isGenerator ← eat "*"
  withFlags (fun f => { f with inMethod := false, inClassField := false, expectColon := false }) do
    let nameFlags (f : Flags) : Flags :=
      if isExpression then { f with inAsync := isAsync, inGenerator := isGenerator } else f
    let name ← withFlags nameFlags do
      if nameRequired then some <$> identifierBinding false else identifierBinding? false
    let f ← functionTail g start name isAsync isGenerator fun _ => return ()
    match f, isExpression with
    | .function _ _ _ _ _ none, true => unexpected r"{"
    | _, _ => return f

def seesAsyncFunction : Parse Bool :=
  sees "async" <&&> foresees "function" <&&> notM lineBreakAhead

def methodTail (g : Rules) (start : Nat) (isAsync isGenerator : Bool)
    (check : List Node → Parse Unit) : Parse Node :=
  withFlags (fun f => { f with inMethod := true, inClassField := false })
    (functionTail g start none isAsync isGenerator check)

/-- Parameters that count, the receiver not being one of them. -/
def countedParameters (params : List Node) : Nat :=
  (params.filter fun
    | .ident id => id.name != "this"
    | _ => true).length

/-- A getter has no parameter and a setter has one. -/
def checkAccessor (key : Span) (kind : MethodKind) (params : List Node) : Parse Unit := do
  match kind with
  | .getter => if countedParameters params ≠ 0 then note key .getterParameter
  | .setter => if countedParameters params ≠ 1 then note key .setterParameter
  | _ => return ()

end PreviewCompiler.Script.Grammar
