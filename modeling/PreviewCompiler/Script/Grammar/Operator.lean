import PreviewCompiler.Script.Grammar.Types

namespace PreviewCompiler.Script.Grammar

open Parse

/-- Is this value an arrow function that started where one was possible? -/
def isArrowHead (value : Node) : Parse Bool := do
  match value with
  | .arrow span .. => return (← get).arrowStart == some span.lo
  | _ => return false

def operatorOf (allowIn : Bool) : Token → Option (String × Nat)
  | .mark m => (operatorStrength.lookup m).map (m,·)
  | .word "instanceof" => some ("instanceof",7)
  | .word "in" => if allowIn then some ("in",7) else none
  | _ => none

/-- The current token as an operator; characters that form no token end the reading. -/
def operator? : Parse (Option (String × Nat)) := do
  match ← token? with
  | none => return none
  | some _ => return operatorOf (← flags).allowIn (← token)

/-- `??` is not mixed with the other logical operators unless there are parentheses. -/
def noteMixedNullish (operand : Node) : Parse Unit := do
  match operand with
  | .binary span "&&" .. | .binary span "||" .. => note span .nullishMixed
  | _ => return ()

def typeOperators : List String := ["as","satisfies"]

/-- Apply the next operator that binds tighter than `least`, if there is one. -/
def operatorStep (g : Rules) (least : Nat) (left : Node) : Parse (Node × Bool) := do
  if (← isTyped) && least < 7 && !(← afterLineBreak) && (← seesAny typeOperators) then
    let _ ← advance
    if ← sees "const" then
      let _ ← advance
    else g.type
    return (.typed (← spanFrom left.span.lo) left,true)
  match ← operator? with
  | none => return (left,false)
  | some (op,strength) =>
    if strength ≤ least then return (left,false)
    let _ ← advance
    match op, left with
    | "**", .unary .. | "**", .await .. => refuse (← hereSpan) .unaryBeforePower
    | _, _ => pure ()
    let operand ← g.operand
    let right ← g.operators operand (if op == "**" then strength - 1 else strength)
    if op == "??" then
      noteMixedNullish left
      noteMixedNullish right
    return (.binary ⟨left.span.lo,right.span.hi⟩ op left right,true)

def operators (g : Rules) (left : Node) (least : Nat) : Parse Node :=
  iterate left (operatorStep g least)

/-- A missing operand in front of a binary operator is noted and reading goes on with the
operator. -/
def missingOperand (fault : Fault) : Parse Node := do
  match operatorOf (← flags).allowIn (← token) with
  | some _ =>
    note (← hereSpan) .expressionExpected
    return .invalid fault.span
  | none => throw fault

def binary (g : Rules) : Parse Node := do
  let left ← tryCatch g.operand missingOperand
  if ← isArrowHead left then return left
  g.operators left 0

def branches (g : Rules) (start : Nat) (test : Node) : Parse Node := do
  expect "?"
  let yes ← withFlags
    (fun f => { f with inCondition := true, expectColon := true, allowIn := true }) g.assignment
  expect ":"
  let no ← withFlags (fun f => { f with inCondition := true, expectColon := false }) g.assignment
  return .conditional ⟨start,no.span.hi⟩ test yes no

def conditional (g : Rules) : Parse Node := do
  let start ← here
  let test ← binary g
  if ← isArrowHead test then return test
  if ← sees "?" then branches g start test else return test

/-- The value of an assignment to `target`, if an assignment mark follows. -/
def assignmentTo (g : Rules) (start : Nat) (target : Node) : Parse Node := do
  match ← token? with
  | none => return target
  | some _ =>
    match ← token with
    | .mark op =>
      if !assignMarks.contains op then return target
      let target ← if op == "=" then g.retarget .assigned target
        else do
          if !isSimpleTarget target then
            note target.span (if ← isTyped then .assignReference else .notSimpleTarget)
          pure target
      if !isAssignable target then refuse target.span .assignTarget
      let _ ← advance
      let value ← g.assignment
      return .assign (← spanFrom start) op target value
    | _ => return target

def yielded (g : Rules) : Parse Node := do
  let start ← here
  expect "yield"
  if (← flags).inParameters then refuse (← spanFrom start) .yieldInParameter
  let ends := (← seesEnd) || (← seesAny [")","]",",",":"])
  if ends then return .yield (← spanFrom start) false none
  let delegate ← eat "*"
  let value ← g.assignment
  return .yield (← spanFrom start) delegate (some value)

def plainAssignment (g : Rules) : Parse Node := do
  if (← flags).inGenerator && (← sees "yield") then return ← yielded g
  let t ← token
  let start ← here
  let mayBeArrow := t.isSpelled "(" || t.isSpelled "yield" || t.isPlainWord
  modify fun r => { r with arrowStart := if mayBeArrow then some start else none }
  let value ← conditional g
  if ← isArrowHead value then return value
  match value with
  | .conditional .. | .binary .. | .unary .. | .update .. => return value
  | _ => assignmentTo g start value

def genericArrow (g : Rules) : Parse (Option Node) :=
  withFlags (fun f => { f with expectColon := false }) do
    let start ← here
    typeParameters g
    match ← plainAssignment g with
    | .arrow span isAsync params body => return some (.arrow ⟨start,span.hi⟩ isAsync params body)
    | _ => unexpected "("

def seesTagOpen : Parse Bool := return (← token?) == some .tagOpen

/-- Leave the surroundings that the start of a tag has opened. -/
def closeTagSurroundings : Parse Unit :=
  modify fun r => { r with lexer := { r.lexer with around := r.lexer.around.drop 2 } }

/-- In a dialect with types and markup, `<` in front of a value starts an element if one can be
read, else type parameters if an arrow function with them can be read. -/
def assignment (g : Rules) : Parse Node := do
  let d ← dialect
  if !d.types then return ← plainAssignment g
  let startsTag ← seesTagOpen
  if d.markup && startsTag then
    match ← attempt (some <$> plainAssignment g) with
    | some value => return value
    | none => closeTagSurroundings
  if startsTag || (← sees "<") then
    let named := match ← peek? with
      | some (.word _) | some (.tagName _) => true
      | _ => false
    if named then
      match ← attempt (genericArrow g) with
      | some value => return value
      | none => pure ()
  plainAssignment g

def sequence (g : Rules) : Parse Node := do
  let first ← g.assignment
  if ← sees "," then
    let others ← collect (eat ",") g.assignment
    return .sequence (← spanFrom first.span.lo) (first :: others)
  else return first

end PreviewCompiler.Script.Grammar
