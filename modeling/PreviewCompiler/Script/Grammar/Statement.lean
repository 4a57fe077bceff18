import PreviewCompiler.Script.Grammar.Markup

namespace PreviewCompiler.Script.Grammar

open Parse

def declarator (g : Rules) (kind : VariableKind) (inLoop : Bool) : Parse Node := do
  let start ← here
  let target ← g.target (kind != .var)
  let isName := match target with
    | .ident _ => true
    | _ => false
  if (← isTyped) && isName then
    let _ ← eat "!"
  let _ ← typeAnnotation? g
  if inLoop && (← seesAny ["in","of"]) then return .declarator (← spanFrom start) target none
  if ← eat "=" then
    let value ← g.assignment
    noteStrayDefaults value
    return .declarator (← spanFrom start) target (some value)
  let span ← spanFrom start
  if !(← flags).inDeclare then
    if kind == .const && !inLoop then note span .constWithoutInitializer
    else if !isName then refuse span .patternWithoutInitializer
  return .declarator span target none

def variableWords : List String := ["var","let","const"]

/-- The rest of a line behind declarations that do not end, which was noted. -/
def skipToEnd (g : Rules) : Parse Unit := do
  let _ ← tryCatch (some <$> g.sequence) fun _ => return none
  iterate () fun _ => do
    if ← eatEnd then return ((),false)
    else
      let _ ← advance
      match ← token? with
      | some (.broken _) => return ((),false)
      | _ => return ((),true)

/-- A declaration of variables, without its end if it heads a loop. -/
def variableDecl (g : Rules) (inLoop isDeclare : Bool) : Parse Node := do
  let start ← here
  let kind : VariableKind := match ← token with
    | .word "let" => .let
    | .word "const" => .const
    | _ => .var
  let _ ← advance
  let allowIn (f : Flags) : Flags :=
    if kind == .var && inLoop then f else { f with allowIn := true }
  let declarators ← iterate ([] : List Node) fun found => do
    if ← (pure !found.isEmpty <&&> notM (eat ",")) then return (found,false)
    else if (← atEnd) || (← sees ";") then
      note (← previousSpan) .trailingComma
      return (found,false)
    else return ((← withFlags allowIn (declarator g kind inLoop)) :: found,true)
  if ← (pure !inLoop <&&> notM eatEnd) then
    note (← hereSpan) .semicolonMissing
    skipToEnd g
  return .variableDecl (← spanFrom start) kind isDeclare declarators.reverse

def seesLetDeclaration : Parse Bool := do
  if !(← sees "let") then return false
  match ← peek? with
  | some (.word w) =>
    return !keywords.contains w || ["let","yield","await"].contains w
  | some t => return t.isSpelled "[" || t.isSpelled r"{"
  | none => return false

def interfaceFrom (g : Rules) (start : Nat) : Parse Node := do
  let (span,name) ← wordName
  typeParameters? g
  let _ ← collect (eat "extends") (heritage g)
  inType (objectType g)
  return .typeDecl (← spanFrom start) (some ⟨name,span,0⟩)

def aliasFrom (g : Rules) (start : Nat) : Parse Node := do
  let (span,name) ← wordName
  typeParameters? g
  inType do
    expect "="
    g.type
  expectEnd
  return .typeDecl (← spanFrom start) (some ⟨name,span,0⟩)

def skipBraces (g : Rules) : Parse Unit := do
  let _ ← block g

/-- Note a declaration that does something when the program runs, unless it is one of what exists elsewhere. -/
def noteNotLowered (start : Nat) (construct : String) : Parse Unit := do
  if !(← flags).inDeclare then note (← spanFrom start) (.notLowered construct)

def ambientModule (g : Rules) (start : Nat) : Parse Node := do
  let isNamed := (← stringLiteral?).isSome
  if !isNamed then dottedName
  if ← sees r"{" then
    match ← block g with
    | .block _ body => if !isNamed && body.any Node.isRuntime then noteNotLowered start "A namespace"
    | _ => pure ()
  else expectEnd
  return .typeDecl (← spanFrom start) none

def enumFrom (g : Rules) (start : Nat) : Parse Node := do
  let id ← identifier true
  expect r"{"
  listUntil [r"}"] do
    let _ ← propertyKey g
    if ← eat "=" then
      let _ ← g.assignment
  expect r"}"
  noteNotLowered start "An enumeration"
  return .typeDecl (← spanFrom start) (some id)

def declared : Node → Node
  | .functionDecl _ name f => .functionDecl true name f
  | .classDecl _ name c => .classDecl true name c
  | .variableDecl span kind _ ds => .variableDecl span kind true ds
  | n => n

def typeDeclaration? (g : Rules) (start : Nat) (w : String) (strict : Bool) :
    Parse (Option Node) := do
  let follows := strict || ((← seesVariable) && !(← afterLineBreak))
  match w with
  | "abstract" =>
    if (← sees "class") && (strict || !(← afterLineBreak)) then
      return some ((← classFrom g start true).asDeclaration strict)
    else return none
  | "interface" => if follows then some <$> interfaceFrom g start else return none
  | "type" => if follows then some <$> aliasFrom g start else return none
  | "enum" => if follows then some <$> enumFrom g start else return none
  | "module" | "namespace" =>
    let named := match ← token? with
      | some (.string ..) => w == "module"
      | _ => false
    if follows || named then some <$> ambientModule g start else return none
  | "global" => if ← sees r"{" then some <$> ambientModule g start else return none
  | _ => return none

def ambient? (g : Rules) (start : Nat) : Parse (Option Node) :=
  withFlags (fun f => { f with inDeclare := true }) do
    if ← sees "function" then
      return some ((← functionFrom g false false true).asDeclaration true)
    if ← sees "class" then return some ((← classFrom g start true).asDeclaration true)
    if ← (sees "const" <&&> foresees "enum") then
      expect "const"
      expect "enum"
      return some (← enumFrom g start)
    if ← seesAny variableWords then return some (← variableDecl g false true)
    match ← token? with
    | some (.word w) =>
      if w == "global" then
        let _ ← advance
        skipBraces g
        return some (.typeDecl (← spanFrom start) none)
      else if ["abstract","interface","type","enum","module","namespace"].contains w then
        let _ ← advance
        return (← typeDeclaration? g start w true).map declared
      else return none
    | _ => return none

def jump (isBreak : Bool) : Parse Node := do
  let start ← here
  let _ ← advance
  let label ← if ← eatEnd then pure none
    else do
      let id ← identifierUse
      expectEnd
      pure (some id)
  let span ← spanFrom start
  let f ← flags
  let labels := (← get).labels
  let unknown := match label with
    | some id => !labels.contains id.name
    | none => false
  if isBreak then
    if unknown then note span .breakLabel
    else if !f.breakAllowed then note span .breakMisplaced
    return .breakStatement span label
  else
    if !f.continueAllowed then note span .continueMisplaced
    else if unknown then note span .continueLabel
    return .continueStatement span label

def returned (g : Rules) : Parse Node := do
  let start ← here
  expect "return"
  let value ← if ← seesEnd then pure none else some <$> allowingIn true g.sequence
  expectEnd
  let span ← spanFrom start
  if !(← flags).inFunction then note span .returnMisplaced
  return .returnStatement span value

def thrown (g : Rules) : Parse Node := do
  let start ← here
  expect "throw"
  if ← afterLineBreak then refuse (← hereSpan) .throwLineBreak
  let value ← allowingIn true g.sequence
  expectEnd
  return .throwStatement (← spanFrom start) value

def subject (g : Rules) : Parse Node := do
  expect "("
  let value ← allowingIn true g.sequence
  expect ")"
  return value

def ifStatement (g : Rules) : Parse Node := do
  let start ← here
  expect "if"
  let test ← subject g
  let yes ← g.statement false
  let no ← if ← eat "else" then some <$> g.statement false else pure none
  return .ifStatement (← spanFrom start) test yes no

def loopBody (g : Rules) : Parse Node :=
  withFlags (fun f => { f with breakAllowed := true, continueAllowed := true }) (g.statement false)

def whileStatement (g : Rules) : Parse Node := do
  let start ← here
  expect "while"
  let test ← subject g
  let body ← loopBody g
  return .whileStatement (← spanFrom start) test body

def doStatement (g : Rules) : Parse Node := do
  let start ← here
  expect "do"
  let body ← loopBody g
  expect "while"
  let test ← subject g
  let _ ← eat ";"
  return .doStatement (← spanFrom start) body test

inductive LoopHead where
  | counted (init test update : Option Node)
  | overKeys (left right : Node)
  | overValues (left right : Node)

/-- The test and the step of a loop, behind its first semicolon. -/
def countedHead (g : Rules) (init : Option Node) : Parse LoopHead := do
  let test ← if ← eat ";" then pure none
    else do
      let test ← allowingIn true g.sequence
      expect ";"
      pure (some test)
  let update ← if ← sees ")" then pure none else some <$> allowingIn true g.sequence
  return .counted init test update

/-- A loop over what a value holds, from the word behind its variable on. -/
def eachHead (g : Rules) (left : Node) : Parse LoopHead := do
  if ← eat "of" then return .overValues left (← allowingIn true g.assignment)
  expect "in"
  return .overKeys left (← allowingIn true g.sequence)

/-- Note what the variable of a loop cannot be. -/
def checkLoopVariable (declaration : Node) : Parse Unit := do
  match declaration with
  | .variableDecl _ _ _ [.declarator _ target (some _)] => note target.span .loopVariableInitializer
  | .variableDecl _ _ _ (_ :: others@(_ :: _)) =>
    others.forM fun
      | .declarator _ target _ => note target.span .loopVariableCount
      | _ => return ()
  | _ => return ()

def loopHead (g : Rules) : Parse LoopHead := do
  if ← (seesAny ["const","var"] <||> seesLetDeclaration) then
    let declaration ← variableDecl g true false
    if ← seesAny ["of","in"] then
      checkLoopVariable declaration
      return ← eachHead g declaration
    expect ";"
    return ← countedHead g (some declaration)
  if ← eat ";" then return ← countedHead g none
  let init ← allowingIn false g.sequence
  if ← seesAny ["of","in"] then return ← eachHead g (← g.retarget .assigned init)
  expect ";"
  noteStrayDefaults init
  countedHead g (some init)

def forStatement (g : Rules) : Parse Node := do
  let start ← here
  expect "for"
  let awaitStart ← here
  let awaits ← if ← eat "await" then some <$> spanFrom awaitStart else pure none
  expect "("
  let head ← loopHead g
  expect ")"
  let body ← loopBody g
  let span ← spanFrom start
  match head, awaits with
  | .overValues left right, awaits => return .forOf span awaits.isSome left right body
  | _, some span => refuse span .awaitLoop
  | .overKeys left right, none => return .forIn span left right body
  | .counted init test update, none => return .forStatement span init test update body

def tryStatement (g : Rules) : Parse Node := do
  let start ← here
  expect "try"
  let body ← block g
  let catchStart ← here
  let handler ← if ← eat "catch" then do
      let param ← if ← eat "(" then do
          let target ← g.target false
          let _ ← typeAnnotation? g
          expect ")"
          pure (some target)
        else pure none
      let handler ← block g
      pure (some (.catchClause (← spanFrom catchStart) param handler))
    else pure none
  let finalizer ← if ← eat "finally" then some <$> block g else pure none
  if handler.isNone && finalizer.isNone then note (Span.point catchStart) .semicolonMissing
  return .tryStatement (← spanFrom start) body handler finalizer

def caseBody (g : Rules) : Parse (List Node) :=
  collect (do return !(← atEnd) && !(← seesAny ["case","default",r"}"])) (g.statement true)

def switchCases (g : Rules) : Parse (List Node) := do
  let (cases,_) ← iterate (([] : List Node),false) fun (found,defaulted) => do
    let start ← here
    if ← eat "case" then
      let test ← allowingIn true g.sequence
      expect ":"
      let body ← caseBody g
      return ((.switchCase (← spanFrom start) (some test) body :: found,defaulted),true)
    else if ← eat "default" then
      if defaulted then note (← previousSpan) .defaultTwice
      expect ":"
      let body ← caseBody g
      return ((.switchCase (← spanFrom start) none body :: found,true),true)
    else return ((found,defaulted),false)
  return cases.reverse

def switchStatement (g : Rules) : Parse Node := do
  let start ← here
  expect "switch"
  let value ← subject g
  expect r"{"
  let cases ← withFlags (fun f => { f with breakAllowed := true }) (switchCases g)
  expect r"}"
  return .switchStatement (← spanFrom start) value cases

def labelled (g : Rules) (label : Ident) : Parse Node := do
  let outer := (← get).labels
  modify fun r => { r with labels := label.name :: outer }
  let body ← withFlags (fun f => { f with breakAllowed := true }) do
    if ← sees "function" then
      let f ← functionFrom g false false true
      note f.span .labelledFunction
      return f.asDeclaration false
    else g.statement false
  if outer.contains label.name then note label.span (.labelTwice label.name)
  modify fun r => { r with labels := outer }
  return .labelled (← spanFrom label.span.lo) label body

/-- An expression as a statement, with what an unfinished one is taken for. -/
def finishExpression (g : Rules) (start : Nat) (value : Node) : Parse Node := do
  if ← eatEnd then return .exprStatement (← spanFrom start) value
  let t ← token
  if t.isBinary then
    note (← hereSpan) .semicolonMissing
    let value ← g.operators value 0
    return .exprStatement (← spanFrom start) value
  else refuse (← hereSpan) .statementEndExpected

def expressionStatement (g : Rules) : Parse Node := do
  let start ← here
  let value ← allowingIn true g.sequence
  match value with
  | .ident id =>
    if ← eat ":" then return ← labelled g id
    if ← isTyped then
      let declaration ← if id.name == "declare" then ambient? g start
        else typeDeclaration? g start id.name false
      match declaration with
      | some declaration => return declaration
      | none => pure ()
    finishExpression g start value
  | _ =>
    noteStrayDefaults value
    finishExpression g start value

def wordStatement? (g : Rules) (w : String) (declarations : Bool) : Parse (Option Node) := do
  match w with
  | "break" => some <$> jump true
  | "continue" => some <$> jump false
  | "debugger" =>
    let start ← here
    expect "debugger"
    expectEnd
    return some (.debuggerStatement (← spanFrom start))
  | "do" => some <$> doStatement g
  | "for" => some <$> forStatement g
  | "function" =>
    if !declarations then note (← hereSpan) .declarationMisplaced
    return some ((← functionFrom g false false true).asDeclaration false)
  | "class" =>
    if !declarations then note (← hereSpan) .declarationMisplaced
    return some ((← classFrom g (← here) true).asDeclaration false)
  | "if" => some <$> ifStatement g
  | "return" => some <$> returned g
  | "switch" => some <$> switchStatement g
  | "throw" => some <$> thrown g
  | "try" => some <$> tryStatement g
  | "while" => some <$> whileStatement g
  | "var" => some <$> variableDecl g false false
  | "const" => if declarations then some <$> variableDecl g false false else return none
  | "let" =>
    if ← (pure declarations <&&> seesLetDeclaration) then some <$> variableDecl g false false
    else return none
  | "async" =>
    if ← seesAsyncFunction then
      return some ((← functionFrom g true false true).asDeclaration false)
    else return none
  | "interface" | "type" | "enum" =>
    if ← (isTyped <&&> foreseesVariable <&&> notM lineBreakAhead) then
      let start ← here
      let _ ← advance
      typeDeclaration? g start w true
    else return none
  | _ => return none

def statement (g : Rules) (declarations : Bool) : Parse Node :=
  withFlags (fun f => { f with expectColon := false }) do
    if ← (seesAny ["import","export"] <&&> notM (foresees "(" <||> foresees ".")) then
      refuse (← hereSpan) .moduleItemMisplaced
    match ← token with
    | .word w =>
      match ← wordStatement? g w declarations with
      | some s => return s
      | none => expressionStatement g
    | t =>
      if t.isSpelled r"{" then block g
      else if t.isSpelled ";" then
        let span ← hereSpan
        let _ ← advance
        return .empty span
      else expressionStatement g

end PreviewCompiler.Script.Grammar
