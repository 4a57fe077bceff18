import PreviewCompiler.Script.Grammar.Class

namespace PreviewCompiler.Script.Grammar

open Parse

/-- Properties that have a default and belong to no pattern; functions are not searched. -/
def strayDefaults (n : Node) : List Span :=
  match n with
  | .function .. | .arrow .. => []
  | .shorthandDefault span .. => [span]
  | n =>
    ((n.traverse (m := StateM (List Span)) fun part _ => do
      modify (· ++ strayDefaults part)
      return part).run []).2
termination_by sizeOf n

/-- Note what cannot stand in a value that is known to be no pattern. -/
def noteStrayDefaults (value : Node) : Parse Unit :=
  (strayDefaults value).forM (note · .assignShorthand)

def spreadable (g : Rules) : Parse Node := do
  let start ← here
  if ← eat "..." then
    let dots ← spanFrom start
    return .spread dots (← g.assignment)
  else g.assignment

def arrayValue (g : Rules) : Parse Node := do
  let start ← here
  expect "["
  let elements ← iterate ([] : List Node) fun found => do
    if (← atEnd) || (← sees "]") then return (found,false)
    else if ← eat "," then return (.hole :: found,true)
    else
      let element ← withFlags (fun f => { f with allowIn := true, expectColon := false })
        (spreadable g)
      if !(← sees "]") then
        expect ","
        if ← sees "]" then
          let comma ← previousSpan
          modify fun r => { r with trailingCommas := (start,comma) :: r.trailingCommas }
      return (element :: found,true)
  expect "]"
  return .array (← spanFrom start) elements.reverse

/-- The text up to the next mark of a template.  An escape that is not valid is allowed only behind a
tag. -/
def templatePart (tagged : Bool) : Parse String := do
  match ← token with
  | .templateText raw invalid =>
    let _ ← advance
    match invalid, tagged with
    | some fault, false => throw fault
    | _, _ => return raw
  | _ => unexpected "template token"

def templateValue (g : Rules) (tagged : Bool) : Parse Node :=
  withFlags (fun f => { f with expectColon := false }) do
    let start ← here
    expect "`"
    let first ← templatePart tagged
    let (texts,values) ← iterate ([first],([] : List Node)) fun (texts,values) => do
      if ← sees "`" then return ((texts,values),false)
      else
        expect r"${"
        let value ← allowingIn true g.sequence
        expect r"}"
        return (((← templatePart tagged) :: texts,value :: values),true)
    expect "`"
    return .template (← spanFrom start) texts.reverse values.reverse

/-- A property whose key is followed by neither a colon nor parameters. -/
def shortProperty (g : Rules) (start : Nat) (key : Node) : Parse Node := do
  match key with
  | .keyName keySpan name =>
    if ← eat "?" then note (← previousSpan) .memberOptional
    if ← seesAny ["=",",",r"}"] then
      if isReserved name then note keySpan .reservedShorthand
      if ← eat "=" then
        let value ← allowingIn true g.assignment
        return .shorthandDefault (← spanFrom start) ⟨name,keySpan,0⟩ value
      else return .shorthand ⟨name,keySpan,0⟩
    else if ["get","set","async"].contains name then
      let isAsync := name == "async"
      let isGenerator ← if isAsync then eat "*" else pure false
      let key ← propertyKey g
      let kind : MethodKind :=
        if name == "get" then .getter else if name == "set" then .setter else .plain
      let function ← methodTail g start isAsync isGenerator (checkAccessor key.span kind)
      return .method (← spanFrom start) kind key function
    else if ← isTyped then
      unexpected "... , *,  (, [, :, , ?, =, an identifier, public, protected, private, readonly, <."
    else unexpected "... , *,  (, [, :, , ?, = or an identifier"
  | _ => unexpected "identifier"

def objectProperty (g : Rules) : Parse Node := do
  let start ← here
  if ← eat "..." then
    let dots ← spanFrom start
    return .spread dots (← allowingIn true g.assignment)
  if ← eat "*" then
    let key ← propertyKey g
    let function ← methodTail g start false true fun _ => return ()
    return .method (← spanFrom start) .plain key function
  let _ ← eatModifiers
  let key ← propertyKey g
  if ← eat ":" then return .property key (← allowingIn true g.assignment)
  if ← seesMethod then
    let function ← methodTail g start false false fun _ => return ()
    return .method (← spanFrom start) .plain key function
  shortProperty g start key

def objectValue (g : Rules) : Parse Node :=
  withFlags (fun f => { f with expectColon := false }) do
    let start ← here
    let (properties,comma) ← braced (objectProperty g)
    match comma with
    | some comma => modify fun r => { r with trailingCommas := (start,comma) :: r.trailingCommas }
    | none => pure ()
    return .object (← spanFrom start) properties

/-- What stands between two parentheses: a value, or a target that no value looks like. -/
inductive ParenItem where
  | value (value : Node)
  | target (target : Node)

/-- A value at the start of an item, where a question mark may be part of a target. -/
def parenValue (g : Rules) : Parse Node := do
  let start ← here
  let dotted ← sees "..."
  let named ← if dotted then foreseesVariable else seesVariable
  if (← isTyped) && named then
    if ← eat "..." then
      let dots ← spanFrom start
      return .spread dots (← allowingIn true (binary g))
    else assignmentTo g start (← binary g)
  else allowingIn true (spreadable g)

/-- Is the question mark at the current token that of an optional parameter? -/
def eatOptional (item : Node) : Parse Bool := do
  if ← (isTyped <&&> sees "?" <&&> foreseesAny [",",":",")","="]) then
    let _ ← advance
    match item with
    | .spread .. => note (← previousSpan) .restOptional
    | .ident _ => pure ()
    | _ => refuse item.span .optionalPattern
    return true
  else return false

def parenItem (g : Rules) : Parse ParenItem := do
  let start ← here
  modify fun r => { r with arrowStart := some start }
  let modified ← eatModifiers
  let patternStart ← here
  let value ← parenValue g
  let optional ← eatOptional value
  let value ← match value with
    | .spread .. => pure value
    | _ => if !optional && (← isTyped) && (← sees "?") then branches g start value else pure value
  let item ← if optional || ((← isTyped) && (← sees ":")) then do
      let target ← match value with
        | .spread dots inner =>
          let target ← g.retarget .binding inner
          pure (.rest ⟨dots.lo,target.span.hi⟩ target)
        | value => g.retarget .binding value
      let _ ← typeAnnotation? g
      if ← eat "=" then
        let default ← g.assignment
        pure (.target (.withDefault (← spanFrom patternStart) target default))
      else pure (.target target)
    else pure (.value value)
  if modified then note (← spanFrom start) .parameterProperty
  return item

/-- What stands between two parentheses, read as values and targets at once: only the token behind them
decides what it is. -/
def parenItems (g : Rules) : Parse (List ParenItem × Option Span) :=
  withFlags (fun f => { f with expectColon := false }) do
    expect "("
    let (found,comma) ← iterate (([] : List ParenItem),(none : Option Span))
      fun (found,comma) => do
        if (← atEnd) || (← sees ")") then return ((found,comma),false)
        else
          let item ← parenItem g
          if ← sees ")" then return ((item :: found,comma),true)
          else
            expect ","
            let comma ← if ← sees ")" then some <$> previousSpan else pure none
            return ((item :: found,comma),true)
    expect ")"
    return (found.reverse,comma)

/-- The items of a head of an arrow function as its parameters. -/
def parametersOf (g : Rules) (comma : Option Span) : List ParenItem → Parse (List Node)
  | [] => return []
  | [.value (.spread dots value)] => do
    match value with
    | .assign .. => note ⟨dots.lo,value.span.hi⟩ .restInitializer
    | _ => pure ()
    comma.forM (note · .restTrailingComma)
    let target ← g.retarget .binding value
    return [.rest ⟨dots.lo,target.span.hi⟩ target]
  | [.value value] => return [← g.retarget .binding value]
  | [.target target] => do
    match target with
    | .rest .. => comma.forM (note · .restTrailingComma)
    | _ => pure ()
    return [target]
  | item :: others => do
    match item with
    | .value (.spread dots value) =>
      note ⟨dots.lo,value.span.hi⟩ .restParameterNotLast
      parametersOf g comma others
    | .value value => do
      let target ← g.retarget .binding value
      return target :: (← parametersOf g comma others)
    | .target target => do
      match target with
      | .rest span _ => note span .restParameterNotLast
      | _ => pure ()
      return target :: (← parametersOf g comma others)

def arrowFrom (g : Rules) (start : Nat) (isAsync : Bool) (items : List ParenItem)
    (comma : Option Span) : Parse Node := do
  expect "=>"
  let params ← parametersOf g comma items
  (params.flatMap Node.boundIdents).forM fun id =>
    if isUnbindable id.name then note id.span .strictBinding else return ()
  let body ← arrowBody g isAsync
  return .arrow (← spanFrom start) isAsync params body

/-- An operator behind an arrow function with a block, which lacks parentheses. -/
def afterArrow (g : Rules) (arrow : Node) : Parse Node := do
  match arrow with
  | .arrow _ _ _ (.block ..) =>
    if (← token?).any Token.isBinary then
      note (← hereSpan) .semicolonMissing
      let value ← g.operators arrow 0
      if !(← seesEnd) then note (← hereSpan) .semicolonMissing
      return value
    else return arrow
  | _ => return arrow

def arrowResult? (g : Rules) : Parse Bool := do
  if (← isTyped) && (← sees ":") && !(← flags).expectColon then
    let found ← attempt do
      resultType g ":"
      if ← sees "=>" then return some () else return none
    return found.isSome
  else return false

/-- In a condition, a colon behind parentheses may start the result type of an arrow function. -/
def conditionArrow? (g : Rules) (start : Nat) (isAsync : Bool) (items : List ParenItem)
    (comma : Option Span) : Parse (Option Node) := do
  let f ← flags
  if (← isTyped) && f.inCondition && (← sees ":") then
    attempt do
      resultType g ":"
      let arrow ← arrowFrom g start isAsync items comma
      if f.expectColon && !(← seesAny [":",";",",",")"]) then return none
      else return some arrow
  else return none

def isTargetItem : ParenItem → Bool
  | .target _ => true
  | .value _ => false

def valuesOf (items : List ParenItem) : List Node :=
  items.filterMap fun
    | .value v => some v
    | .target _ => none

/-- Refuse values that are spread where only one value can stand. -/
def refuseSpread (values : List Node) : Parse Unit :=
  values.forM fun
    | .spread _ value => refuse value.span .spreadInParens
    | _ => return ()

/-- A value in parentheses, or a call of `async`. -/
def parenthesized (asyncWord : Option Span) (start : Nat) (values : List Node) : Parse Node := do
  values.forM fun
    | .object _ properties => properties.forM fun
      | .shorthandDefault span .. => note span .assignShorthand
      | _ => return ()
    | _ => return ()
  match asyncWord with
  | some span => return .call (← spanFrom start) (.ident ⟨"async",span,0⟩) values
  | none =>
    refuseSpread values
    match values with
    | [] => refuse (← spanFrom start) .emptyParens
    | [value] => return .paren (← spanFrom start) value
    | first :: others =>
      let span : Span := ⟨first.span.lo,(others.getLastD first).span.hi⟩
      return .paren (← spanFrom start) (.sequence span values)

/-- Parentheses, behind `async` if that word was read. -/
def parenOrArrow (g : Rules) (mayBeArrow : Bool) (asyncWord : Option Span) : Parse Node := do
  let start := (asyncWord.map (·.lo)).getD (← here)
  let isAsync := asyncWord.isSome
  let (items,comma) ← parenItems g
  match ← conditionArrow? g start isAsync items comma with
  | some arrow => return arrow
  | none =>
    let typed ← arrowResult? g
    if items.any isTargetItem || typed || (← sees "=>") then
      if ← afterLineBreak then refuse (← spanFrom start) .arrowLineBreak
      if !mayBeArrow then refuse (← spanFrom start) .arrowNotAllowed
      afterArrow g (← arrowFrom g start isAsync items comma)
    else parenthesized asyncWord start (valuesOf items)

/-- A name, which is the whole head of an arrow function if an arrow follows. -/
def nameOrArrow (g : Rules) (start : Nat) (mayBeArrow : Bool) : Parse Node :=
  withFlags (fun f => { f with expectColon := false }) do
    let id ← identifierUse
    if id.name == "async" && mayBeArrow && !(← afterLineBreak) && (← seesVariable) then
      let param ← identifierBinding false
      let arrow ← arrowFrom g start true [.target (.ident param)] none
      return arrow
    if mayBeArrow && !(← afterLineBreak) && (← sees "=>") then
      if isUnbindable id.name then note id.span .strictBinding
      arrowFrom g start false [.target (.ident id)] none
    else return .ident id

def regexFlags : List Char := ['d','g','i','m','s','u','v','y']

def noteRegexFlags (span : Span) (flags : List Char) : Parse Unit := do
  match flags.find? fun c => 1 < flags.count c with
  | some c => note span (.regexFlagTwice c)
  | none => pure ()
  if flags.any fun c => !regexFlags.contains c then note span .regexFlagUnknown

/-- A regular expression, whose first slash was read as an operator and is read again. -/
def regex? : Parse (Option Node) := do
  match ← lexeme? with
  | none => return none
  | some slash =>
    let start := slash.span.lo
    let source := (← get).source
    let _ ← advance
    modify fun r => { r with
      upcoming := none
      lexer := { r.lexer with regexFrom := some (start,source.drop (start - 1)) } }
    match ← token? with
    | some (.regex body flags) =>
      modify fun r => { r with lexer := { r.lexer with regexFrom := none } }
      let _ ← advance
      let span ← spanFrom start
      noteRegexFlags span flags.toList
      return some (.literal span (.regex body flags))
    | _ => return none

def expressionMissing : Parse Node := do
  refuse (← hereSpan) .expressionExpected

def tokenValue (l : Literal) : Parse Node := do
  let span ← hereSpan
  let _ ← advance
  return .literal span l

def primary (g : Rules) : Parse Node := do
  let start ← here
  let mayBeArrow := (← get).arrowStart == some start
  match ← token? with
  | some (.string value raw) => tokenValue (.string value (some raw))
  | some (.number raw) => tokenValue (.number raw)
  | some (.bigint raw) => tokenValue (.bigint raw)
  | some (.word "null") => tokenValue .null
  | some (.word "true") => tokenValue (.bool true)
  | some (.word "false") => tokenValue (.bool false)
  | some (.word "this") =>
    let span ← hereSpan
    let _ ← advance
    return .thisWord span
  | some (.word "function") => functionFrom g false true false
  | some (.word "class") => classFrom g start false
  | some (.word w) =>
    if w == "async" then
      if ← seesAsyncFunction then return ← functionFrom g true true false
      if ← (pure mayBeArrow <&&> foresees "(") then
        expect "async"
        return ← parenOrArrow g mayBeArrow (some (← previousSpan))
    if w == "let" || !isReserved w || (w == "await" && (← isTyped)) then
      nameOrArrow g start mayBeArrow
    else expressionMissing
  | some (.mark "[") => arrayValue g
  | some (.mark "(") => parenOrArrow g mayBeArrow none
  | some (.mark "`") => templateValue g false
  | some (.mark "#") => privateName
  | some t =>
    if t.isSpelled r"{" then objectValue g
    else if t.isSpelled "/" || t.isSpelled "/=" then
      match ← regex? with
      | some value => return value
      | none => expressionMissing
    else expressionMissing
  | none => expressionMissing

end PreviewCompiler.Script.Grammar
