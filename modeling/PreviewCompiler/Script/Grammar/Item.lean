import PreviewCompiler.Script.Grammar.Statement

namespace PreviewCompiler.Script.Grammar

open Parse

/-- The facts that an import states about the module that it names, where types are read. -/
def importAttributes? (g : Rules) : Parse (Option Node) := do
  if !(← atEnd) then
    let _ ← token
  if (← isTyped) && !(← afterLineBreak) && ((← sees "assert") || (← sees "with")) then
    let _ ← advance
    some <$> objectValue g
  else return none

def sourceLiteral : Parse Node := do
  let _ ← token
  match ← stringLiteral? with
  | some source => return source
  | none => unexpected "a string literal"

/-- The source of an import or an export, its attributes and the end of the item. -/
def fromClause (g : Rules) : Parse (Node × Option Node) := do
  expect "from"
  let source ← sourceLiteral
  let facts ← importAttributes? g
  expectEnd
  return (source,facts)

/-- The name of a specifier and what was read of it behind the word `type`, which may be a modifier or
the name itself. -/
structure SpecifierHead where
  name : Node
  isType : Bool := false
  /-- The name behind `as`, if it was read. -/
  alias? : Option Node := none
  /-- Nothing more belongs to the specifier. -/
  isComplete : Bool := false

/-- Read what follows a first word of a specifier that was `type`. -/
def typeSpecifier (word : Node) (typeOnly : Bool) : Parse SpecifierHead := do
  let second ← keyName
  if !isKeyWord "as" second then
    if typeOnly then note word.span .typeModifierTwice
    return { name := second, isType := true }
  if !(← seesWord) then return { name := second, isType := true, isComplete := true }
  let third ← keyName
  if isKeyWord "as" third && (← seesWord) then
    return { name := second, isType := true, alias? := some (← keyName), isComplete := true }
  else return { name := word, alias? := some third, isComplete := true }

def specifierHead (typeOnly : Bool) : Parse SpecifierHead := do
  let name ← exportName
  if (← isTyped) && isKeyWord "type" name && (← seesWord) then typeSpecifier name typeOnly
  else return { name := name }

def declaredIdent : Node → Ident
  | .keyName span name => ⟨name,span,0⟩
  | n => ⟨"",n.span,0⟩

def importSpecifier (typeOnly : Bool) : Parse Node := do
  let start ← here
  let head ← specifierHead typeOnly
  match head.alias? with
  | some name =>
    return .importNamed (← spanFrom start) (declaredIdent name) (some head.name) head.isType
  | none =>
    if ← (pure !head.isComplete <&&> eat "as") then
      let id ← identifierBinding false
      return .importNamed (← spanFrom start) id (some head.name) head.isType
    else
      match head.name with
      | .literal span (.string value _) => refuse span (.importNameIsString value)
      | name =>
        let id := declaredIdent name
        if isReserved id.name then refuse id.span .reservedImport
        return .importNamed (← spanFrom start) id none head.isType

def specifiers (p : Parse Node) : Parse (List Node) := do
  expect r"{"
  let found ← iterate ([] : List Node) fun found => do
    if (← atEnd) || (← sees r"}") then return (found,false)
    else
      let specifier ← p
      if ← sees r"}" then return (specifier :: found,false)
      else
        expect ","
        return (specifier :: found,true)
  expect r"}"
  return found.reverse

/-- Is the word `type`, which was read, a modifier of the import? -/
def isTypeImport : Parse Bool := do
  if ← seesAny ["*",r"{"] then return true
  seesVariable <&&> (notM (sees "from") <||> foresees "from")

def defaultBinding : Parse (Option Node × Bool) := do
  if !(← seesVariable) then return (none,false)
  let id ← identifierBinding false
  if ← (isTyped <&&> pure (id.name == "type") <&&> isTypeImport) then
    if ← seesVariable then
      let id ← identifierBinding false
      return (some (.importDefault id.span id),true)
    else return (none,true)
  else return (some (.importDefault id.span id),false)

def otherBindings (typeOnly : Bool) : Parse (List Node) := do
  let start ← here
  if ← eat "*" then
    expect "as"
    let id ← identifierBinding false
    return [.importNamespace (← spanFrom start) id]
  else if ← sees r"{" then specifiers (importSpecifier typeOnly)
  else return []

def importItem (g : Rules) : Parse Node := do
  let start ← here
  expect "import"
  match ← stringLiteral? with
  | some source =>
    let facts ← importAttributes? g
    expectEnd
    return .importDecl (← spanFrom start) false [] source facts
  | none =>
    let (first,typeOnly) ← defaultBinding
    if first.isSome && !(← sees "from") then expect ","
    let others ← otherBindings typeOnly
    let (source,facts) ← fromClause g
    return .importDecl (← spanFrom start) typeOnly (first.toList ++ others) source facts

def exportSpecifier (typeOnly : Bool) : Parse Node := do
  let start ← here
  let head ← specifierHead typeOnly
  let exported ← match head.alias? with
    | some name => pure (some name)
    | none =>
      if ← (pure !head.isComplete <&&> eat "as") then some <$> exportName else pure none
  return .exportSpecifier (← spanFrom start) head.name exported head.isType

/-- An export without a source names variables of this module. -/
def checkExported : Node → Parse Unit
  | .exportSpecifier _ (.literal span (.string ..)) _ _ => note span .exportNameIsString
  | .exportSpecifier _ (.keyName span name) _ _ => do
    if keywords.contains name || literalWords.contains name || name == "enum" then
      note span (.exportNeedsFrom name)
  | _ => return ()

def exportedNames (g : Rules) (start : Nat) (typeOnly : Bool) : Parse Node := do
  if ← sees "*" then
    let starStart ← here
    expect "*"
    if ← eat "as" then
      let name ← exportName
      let specifier := Node.exportNamespace (← spanFrom starStart) name
      let (source,facts) ← fromClause g
      return .exportNamed (← spanFrom start) typeOnly [specifier] (some source) facts
    else
      let (source,facts) ← fromClause g
      return .exportAll (← spanFrom start) typeOnly source facts
  let names ← specifiers (exportSpecifier typeOnly)
  if ← sees "from" then
    let (source,facts) ← fromClause g
    return .exportNamed (← spanFrom start) typeOnly names (some source) facts
  else
    names.forM checkExported
    let _ ← eatEnd
    return .exportNamed (← spanFrom start) typeOnly (names.map ofVariable) none none
where
  ofVariable : Node → Node
    | .exportSpecifier span name@(.keyName ..) exported isType =>
      .exportSpecifier span (.ident (declaredIdent name)) exported isType
    | n => n

def exportDefault (g : Rules) (start : Nat) : Parse Node := do
  let valueStart ← here
  if ← (isTyped <&&> sees "abstract" <&&> foresees "class" <&&> notM lineBreakAhead) then
    let _ ← advance
    let c ← classFrom g valueStart false
    return .exportDefaultDecl (← spanFrom start) (c.asDeclaration false)
  if (← isTyped) && (← sees "interface") then
    let _ ← advance
    let i ← interfaceFrom g valueStart
    return .exportDefaultDecl (← spanFrom start) i
  let declaration ← if ← sees "class" then some <$> classFrom g valueStart false
    else if ← seesAsyncFunction then some <$> defaultFunction g true
    else if ← sees "function" then some <$> defaultFunction g false
    else pure none
  match declaration with
  | some d => return .exportDefaultDecl (← spanFrom start) (d.asDeclaration false)
  | none =>
    let value ← allowingIn true g.assignment
    expectEnd
    return .exportDefault (← spanFrom start) value
where
  /-- A function whose name may be missing; where types are read, its body may be missing, too. -/
  defaultFunction (g : Rules) (isAsync : Bool) : Parse Node := do
    let start ← here
    if isAsync then expect "async"
    expect "function"
    let isGenerator ← eat "*"
    withFlags (fun f => { f with inMethod := false, inClassField := false, expectColon := false }) do
      let name ← identifierBinding? false
      functionTail g start name isAsync isGenerator fun _ => return ()

def exportedDeclaration? (g : Rules) : Parse (Option Node) := do
  let start ← here
  if ← isTyped then
    if ← sees "declare" then
      let found ← attempt do
        let _ ← advance
        let start ← here
        ambient? g start
      if found.isSome then return found
    match ← token with
    | .word w =>
      if ["abstract","interface","type","enum","module","namespace"].contains w then
        let found ← attempt do
          let _ ← advance
          typeDeclaration? g start w false
        if found.isSome then return found
    | _ => pure ()
  if ← sees "class" then return some ((← classFrom g start true).asDeclaration false)
  if ← seesAsyncFunction then return some ((← functionFrom g true false true).asDeclaration false)
  if ← sees "function" then return some ((← functionFrom g false false true).asDeclaration false)
  if ← (seesAny ["var","const"] <||> seesLetDeclaration) then
    return some (← variableDecl g false false)
  return none

def exportItem (g : Rules) : Parse Node := do
  let start ← here
  expect "export"
  let _ ← token
  match ← exportedDeclaration? g with
  | some d => return .exportDecl (← spanFrom start) d
  | none =>
    let typeOnly ← if ← isTyped then eat "type" else pure false
    if ← (pure !typeOnly <&&> eat "default") then exportDefault g start
    else exportedNames g start typeOnly

def moduleItem (g : Rules) : Parse Node := do
  if ← (sees "import" <&&> notM (foresees "(" <||> foresees ".")) then importItem g
  else if ← sees "export" then exportItem g
  else g.statement true

/-- The items of a module and where the first of them starts. -/
def moduleBody (g : Rules) : Parse (Nat × List Node) := do
  let start ← here
  let items ← iterate ([] : List Node) fun found => do
    if ← atEnd then return (found,false) else return ((← moduleItem g) :: found,true)
  return (start,items.reverse)

end PreviewCompiler.Script.Grammar
