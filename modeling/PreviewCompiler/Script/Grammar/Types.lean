import PreviewCompiler.Script.Grammar.Target

namespace PreviewCompiler.Script.Grammar

open Parse

/-- Run a rule as if nothing enclosed it, so that `<` is never the start of a tag. -/
def withoutSurroundings {α : Type} (p : Parse α) : Parse α := fun r =>
  let around := r.lexer.around
  let restore (r' : Reading) : Reading := { r' with lexer := { r'.lexer with around := around } }
  match p { r with lexer := { r.lexer with around := around.reverse.take 1 } } with
  | .ok a r' => .ok a (restore r')
  | .error e r' => .error e (restore r')

def listUntil (closing : List String) (p : Parse Unit) : Parse Unit :=
  iterate () fun _ => do
    if ← seesAny closing then return ((),false)
    else
      p
      if ← eat "," then return ((),true)
      else if ← seesAny closing then return ((),false)
      else
        expect ","
        return ((),false)

/-- An opening angle bracket, also if two of them were read as a shift operator. -/
def expectAngle : Parse Unit := do
  match ← lexeme? with
  | some ⟨.mark "<<",span,br⟩ =>
    modify fun r => { r with current := some ⟨.mark "<",⟨span.lo + 1,span.hi⟩,br⟩ }
  | _ => expect "<"

def typeArguments (g : Rules) : Parse Unit := do
  inType (withoutSurroundings do
    expectAngle
    listUntil [">"] g.type)
  modify fun r => { r with lexer := { r.lexer with operandExpected := false } }
  expect ">"

def typeArguments? (g : Rules) : Parse Unit := do
  if (← sees "<") || (← sees "<<") then typeArguments g

def typeParameter (g : Rules) : Parse Unit := do
  let _ ← collect
    (seesAny ["const","in","out"] <&&> foreseesWord <&&> notM (foresees "extends"))
    advance
  let _ ← wordName
  if ← eat "extends" then g.type
  if ← eat "=" then g.type

def typeParameters (g : Rules) : Parse Unit :=
  inType (withoutSurroundings do
    let start ← here
    if (← sees "<") || (← token?) == some .tagOpen then
      let _ ← advance
    else unexpected "< (jsx tag start)"
    if ← sees ">" then note (← spanFrom start) .typeParametersEmpty
    listUntil [">"] (typeParameter g)
    expect ">")

def typeParameters? (g : Rules) : Parse Unit := do
  if ← sees "<" then typeParameters g

def dottedName : Parse Unit := do
  let _ ← wordName
  let _ ← collect (eat ".") wordName

def typeReference (g : Rules) : Parse Unit := do
  dottedName
  if !(← afterLineBreak) then typeArguments? g

/-- The result type of a function behind `opening`, which may be a predicate on a parameter. -/
def resultType (g : Rules) (opening : String) : Parse Unit :=
  inType do
    expect opening
    let isAssertion := sees "asserts" <&&> (foreseesVariable <||> foresees "this")
    if ← (isAssertion <&&> notM lineBreakAhead) then
      let _ ← advance
      let _ ← wordName
      if ← eat "is" then g.type
    else if ← ((seesVariable <||> sees "this") <&&> foresees "is" <&&> notM lineBreakAhead) then
      let _ ← wordName
      expect "is"
      g.type
    else g.type

def resultType? (g : Rules) : Parse Unit := do
  if (← isTyped) && (← sees ":") then resultType g ":"

def signatureParameters (g : Rules) : Parse Unit := do
  expect "("
  let _ ← parameters g
  expect ")"

/-- Does an opening parenthesis start the parameters of a function type? -/
def seesFunctionType (g : Rules) : Parse Bool := do
  if ← sees "<" then return true
  else if !(← sees "(") then return false
  else
    let found ← lookAhead do
      expect "("
      if ← seesAny [")","..."] then return true
      let _ ← eatModifiers
      let startsParameter ←
        if ← seesWord then do
          let _ ← advance
          pure true
        else if ← seesAny [r"{","["] then do
          let _ ← g.target false
          pure true
        else pure false
      if !startsParameter then return false
      if ← seesAny [":",",","?","="] then return true
      if ← eat ")" then sees "=>" else return false
    return found.getD false

def functionType (g : Rules) : Parse Unit := do
  typeParameters? g
  signatureParameters g
  resultType g "=>"

def memberEnd : Parse Unit := do
  if !(← eat ",") then expectEnd

def memberKey (g : Rules) : Parse Unit := do
  if ← eat "[" then
    let _ ← g.assignment
    expect "]"
  else
    withFlags (fun f => { f with inPropertyName := true }) do
      match ← token with
      | .string .. | .number _ =>
        let _ ← advance
      | _ =>
        let _ ← memberName

/-- A member that gives a type to every key. -/
def indexSignature? (g : Rules) : Parse Bool := do
  let found ← lookAhead (eat "[" <&&> seesVariable <&&> (Option.isSome <$> advance) <&&>
    seesAny [":",","])
  if found.getD false then
    expect "["
    let _ ← identifier true
    expect ":"
    inType g.type
    expect "]"
    let _ ← typeAnnotation? g
    memberEnd
    return true
  else return false

def signature (g : Rules) : Parse Unit := do
  typeParameters? g
  signatureParameters g
  if ← sees ":" then resultType g ":"
  memberEnd

/-- Is the current word a modifier of the member behind it? -/
def seesMemberModifier : Parse Bool := do
  match ← peek? with
  | some t => return !(["(","<",":","?",",",";",r"}","=","!"].any t.isSpelled)
  | none => return false

def typeMember (g : Rules) : Parse Unit := do
  if ← seesAny ["(","<"] then signature g
  else if ← (sees "new" <&&> (foresees "(" <||> foresees "<")) then
    let _ ← advance
    signature g
  else
    if ← (sees "readonly" <&&> seesMemberModifier) then
      let _ ← advance
    if ← indexSignature? g then return ()
    if ← (seesAny ["get","set"] <&&> seesMemberModifier <&&> notM lineBreakAhead) then
      let _ ← advance
      memberKey g
      signature g
    else
      memberKey g
      let _ ← eat "?"
      if ← seesAny ["(","<"] then signature g
      else
        let _ ← typeAnnotation? g
        memberEnd

def objectType (g : Rules) : Parse Unit := do
  expect r"{"
  iterate () fun _ => do
    if ← sees r"}" then return ((),false)
    else
      typeMember g
      return ((),true)
  expect r"}"

def seesMappedType : Parse Bool := do
  let found ← lookAhead do
    expect r"{"
    if ← eatAny ["+","-"] then sees "readonly"
    else
      let _ ← eat "readonly"
      eat "[" <&&> seesVariable <&&> (Option.isSome <$> advance) <&&> sees "in"
  return found.getD false

def mappedType (g : Rules) : Parse Unit := do
  expect r"{"
  if ← eatAny ["+","-"] then expect "readonly"
  else
    let _ ← eat "readonly"
  expect "["
  let _ ← wordName
  expect "in"
  g.type
  if ← eat "as" then g.type
  expect "]"
  if ← eatAny ["+","-"] then expect "?"
  else
    let _ ← eat "?"
  let _ ← typeAnnotation? g
  expectEnd
  expect r"}"

def tupleElement (g : Rules) : Parse Unit := do
  let label ← attempt do
    let _ ← eat "..."
    let _ ← wordName
    let _ ← eat "?"
    expect ":"
    return some ()
  if label.isNone then
    let _ ← eat "..."
  g.type
  let _ ← eat "?"

def templateType (g : Rules) : Parse Unit := do
  expect "`"
  iterate () fun _ => do
    match ← token with
    | .templateText .. =>
      let _ ← advance
    | _ => pure ()
    if ← eat "`" then return ((),false)
    else
      expect r"${"
      g.type
      expect r"}"
      return ((),true)

/-- The wording of what may start a type. -/
def typeStarts : String :=
  "an identifier, void, yield, null, await, break, a string literal, a numeric literal, true, false, `, -, import, this, typeof, \x7b, [, ("

def simpleType (g : Rules) : Parse Unit := do
  match ← token with
  | .string .. | .number _ | .bigint _ =>
    let _ ← advance
  | .mark "-" =>
    let _ ← advance
    match ← token with
    | .number _ | .bigint _ =>
      let _ ← advance
    | _ => unexpected "numeric literal or bigint literal"
  | .mark "`" => templateType g
  | .mark "(" =>
    expect "("
    g.type
    expect ")"
  | .mark "[" =>
    expect "["
    listUntil ["]"] (tupleElement g)
    expect "]"
  | .word "import" =>
    expect "import"
    expect "("
    match ← stringLiteral? with
    | some _ => pure ()
    | none => note (← hereSpan) .stringExpected
    expect ")"
    if ← eat "." then dottedName
    typeArguments? g
  | .word "this" =>
    let _ ← advance
    if !(← afterLineBreak) && (← sees "is") then
      let _ ← advance
      g.type
  | .word "typeof" =>
    let _ ← advance
    if (← sees "import") then g.type
    else
      dottedName
      if !(← afterLineBreak) then typeArguments? g
  | .word w =>
    if ["void","null","true","false"].contains w then
      let _ ← advance
    else if !keywords.contains w || ["yield","await","break"].contains w then typeReference g
    else unexpected typeStarts
  | t =>
    if t.isSpelled r"{" then
      if ← seesMappedType then mappedType g else objectType g
    else unexpected typeStarts

/-- A type with brackets for its arrays and members behind it. -/
def postfixType (g : Rules) : Parse Unit := do
  simpleType g
  iterate () fun _ => do
    if ← (afterLineBreak <||> notM (eat "[")) then return ((),false)
    else
      if !(← eat "]") then
        g.type
        expect "]"
      return ((),true)

/-- A type with words in front of it that make another type of it. -/
def unaryType (g : Rules) : Parse Unit := do
  let _ ← collect
    (do
      if !(← seesAny ["keyof","unique","readonly"]) then return false
      match ← peek? with
      | some t =>
        return !([",",")","]",r"}",">",";","=","|","&","[",".","<","=>",":","?"].any
          t.isSpelled)
      | none => return false)
    advance
  if ← (sees "infer" <&&> foreseesVariable) then
    let _ ← advance
    let _ ← wordName
    let _ ← attempt do
      expect "extends"
      postfixType g
      if ← sees "?" then return none else return some ()
  else postfixType g

/-- Types with a mark between them and perhaps one in front. -/
def joinedTypes (separator : String) (p : Parse Unit) : Parse Unit := do
  let _ ← eat separator
  p
  let _ ← collect (eat separator) p

def plainType (g : Rules) : Parse Unit := do
  if ← seesFunctionType g then functionType g
  else if ← ((sees "abstract" <&&> foresees "new") <||> sees "new") then
    let _ ← eat "abstract"
    expect "new"
    functionType g
  else joinedTypes "|" (joinedTypes "&" (unaryType g))

def typeExpression (g : Rules) : Parse Unit :=
  inType do
    plainType g
    if ← (notM afterLineBreak <&&> eat "extends") then
      plainType g
      expect "?"
      g.type
      expect ":"
      g.type

def heritage (g : Rules) : Parse Unit :=
  listUntil [r"{","implements","extends"] do
    dottedName
    typeArguments? g

end PreviewCompiler.Script.Grammar
