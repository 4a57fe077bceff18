import PreviewCompiler.Script.Grammar.Name

namespace PreviewCompiler.Script.Grammar

open Parse

def typeAnnotation? (g : Rules) : Parse Bool := do
  if (← isTyped) && (← sees ":") then
    inType do
      expect ":"
      g.type
    return true
  else return false

def propertyKey (g : Rules) : Parse Node :=
  withFlags (fun f => { f with inPropertyName := true }) do
    let start ← here
    match ← token with
    | .string value raw =>
      let _ ← advance
      return .literal (← spanFrom start) (.string value (some raw))
    | .number raw =>
      let _ ← advance
      return .literal (← spanFrom start) (.number raw)
    | .bigint raw =>
      let _ ← advance
      return .literal (← spanFrom start) (.bigint raw)
    | .word w =>
      let _ ← advance
      return .keyName (← spanFrom start) w
    | t =>
      if t.isSpelled "[" then
        let _ ← advance
        let inner ← here
        let first ← allowingIn true g.assignment
        let expr ← if (← isTyped) && (← sees ",") then
            let others ← collect (eat ",") (allowingIn true g.assignment)
            note (← spanFrom inner) .computedComma
            pure (.sequence (← spanFrom inner) (first :: others))
          else pure first
        expect "]"
        return .computedName (← spanFrom start) expr
      else
        unexpected "identifier, string literal, numeric literal or [ for the computed key"

def bindingElement (g : Rules) : Parse Node := do
  let start ← here
  let target ← g.target false
  if ← eat "=" then
    let value ← allowingIn true g.assignment
    if (← flags).inDeclare then note (← spanFrom start) .ambientInitializer
    return .withDefault (← spanFrom start) target value
  else return target

/-- Noted at the end of a list behind a rest element: its comma. -/
def noteRestComma (isRest : Bool) (closing : String) : Parse Unit := do
  if isRest && (← sees closing) then note (← previousSpan) .restTrailingComma

def arrayTarget (g : Rules) : Parse Node := do
  let start ← here
  expect "["
  let (elements,_) ← iterate (([] : List Node),(none : Option Span)) fun (found,rest) => do
    if (← atEnd) || (← sees "]") then return ((found,rest),false)
    else if ← eat "," then return ((.hole :: found,rest),true)
    else
      match rest with
      | some span => note span .restNotLast
      | none => pure ()
      let start ← here
      let isRest ← eat "..."
      let element ← if isRest then do
          let target ← g.target false
          pure (Node.rest (← spanFrom start) target)
        else bindingElement g
      let rest := if isRest then some element.span else rest
      if !(← sees "]") then
        expect ","
        noteRestComma isRest "]"
      return ((element :: found,rest),true)
  expect "]"
  return .arrayPattern (← spanFrom start) elements.reverse

def propertyTarget (g : Rules) : Parse Node := do
  let start ← here
  if ← eat "..." then
    let target ← g.target false
    return .rest (← spanFrom start) target
  let key ← propertyKey g
  if ← eat ":" then return .property key (← bindingElement g)
  match key with
  | .keyName span name =>
    let value ← if ← eat "=" then some <$> allowingIn true g.assignment
      else do
        if isReserved name then note span .reservedShorthand
        pure none
    return .shorthandPattern (← spanFrom start) ⟨name,span,0⟩ value
  | _ => unexpected "an identifier"

/-- A rest property is the last one, and names a variable. -/
def checkRestProperties (properties : List Node) (comma : Option Span) : Parse Unit := do
  match properties with
  | [] => return ()
  | [.rest _ (.ident _)] => comma.forM (note · .restTrailingComma)
  | [.rest span _] => refuse span .dotsNeedIdentifier
  | [_] => return ()
  | p :: others =>
    match p with
    | .rest span _ => note span .restNotLast
    | _ => pure ()
    checkRestProperties others comma

/-- The properties between two braces, and the comma in front of the closing one. -/
def braced (p : Parse Node) : Parse (List Node × Option Span) := do
  expect r"{"
  let (found,comma) ← iterate (([] : List Node),(none : Option Span)) fun (found,comma) => do
    if ← eat r"}" then return ((found,comma),false)
    else
      let property ← p
      if ← sees r"}" then return ((property :: found,comma),true)
      else
        expect ","
        let comma ← if ← sees r"}" then some <$> previousSpan else pure none
        return ((property :: found,comma),true)
  return (found.reverse,comma)

def objectTarget (g : Rules) : Parse Node :=
  withFlags (fun f => { f with expectColon := false }) do
    let start ← here
    let (properties,comma) ← braced (propertyTarget g)
    checkRestProperties properties comma
    return .objectPattern (← spanFrom start) properties

def target (g : Rules) (denyLet : Bool) : Parse Node := do
  match ← token with
  | .word _ => return .ident (← identifierBinding denyLet)
  | t =>
    if t.isSpelled "[" then arrayTarget g
    else if t.isSpelled r"{" then objectTarget g
    else unexpected "yield, an identifier, [ or \x7b"

/-- Can this value be assigned to without destructuring? -/
def isSimpleTarget : Node → Bool
  | .ident id => !isUnbindable id.name
  | .member .. | .index .. => true
  | .paren _ e => isSimpleTarget e
  | .typed _ e => isSimpleTarget e
  | _ => false

/-- Note a value that cannot be assigned to, if it is of a kind that never can. -/
def checkReference (value : Node) : Parse Unit := do
  match value with
  | .ident id => if isUnbindable id.name then note id.span .strictBinding
  | .literal span _ => note span .assignReference
  | .call span .. | .construct span .. => note span .assignReference
  | .chain span .. => note span .assignReference
  | _ => return ()

def noteInvalid (span : Span) : Parse Node := do
  note span .notPattern
  return .invalid span

/-- The targets of an array's elements; nothing follows a rest element. -/
def retargetElements (g : Rules) (kind : TargetKind) (comma : Option Span) :
    List Node → Parse (List Node)
  | [] => return []
  | [.spread dots value] => do
    match value with
    | .assign .. => note ⟨dots.lo,value.span.hi⟩ .restInitializer
    | _ => pure ()
    match comma with
    | some c => note c .restTrailingComma
    | none => pure ()
    let target ← g.retarget kind.element value
    return [.rest ⟨dots.lo,target.span.hi⟩ target]
  | e :: others => do
    match e with
    | .spread dots value =>
      note ⟨dots.lo,value.span.hi⟩ .restNotLast
      retargetElements g kind comma others
    | .hole => return .hole :: (← retargetElements g kind comma others)
    | e => do
      let t ← g.retarget kind.element e
      return t :: (← retargetElements g kind comma others)

def dropTrailingHoles (es : List Node) : List Node :=
  (es.reverse.dropWhile fun
    | .hole => true
    | _ => false).reverse

def retargetProperties (g : Rules) (kind : TargetKind) (comma : Option Span) :
    List Node → Parse (List Node)
  | [] => return []
  | p :: others => do
    let t ← match p with
      | .shorthand id => pure (.shorthandPattern id.span id none)
      | .shorthandDefault span id value => pure (.shorthandPattern span id (some value))
      | .property key value => pure (.property key (← g.retarget kind.element value))
      | .spread dots value =>
        let span : Span := ⟨dots.lo,value.span.hi⟩
        if !others.isEmpty then note span .restNotLast
        else match comma with
          | some c => note c .restTrailingComma
          | none => pure ()
        let target ← match kind.element, value with
          | .bindingElement, .ident id => pure (.ident id)
          | .bindingElement, _ =>
            note span .dotsNeedIdentifier
            pure (.invalid span)
          | kind, value => g.retarget kind value
        match target with
        | .withDefault .. => note span .restInitializer
        | _ => pure ()
        pure (.rest span target)
      | p => refuse p.span .notPattern
    return t :: (← retargetProperties g kind comma others)

/-- The comma in front of the bracket that closes what opens at an offset. -/
def trailingCommaOf (offset : Nat) : Parse (Option Span) :=
  return (← get).trailingCommas.lookup offset

/-- A value read again as a pattern, whatever kind of target is wanted. -/
def retargetPattern (g : Rules) (kind : TargetKind) (value : Node) : Parse Node := do
  match value with
  | .assign span "=" target init => return .withDefault span target init
  | .object span properties =>
    return .objectPattern span
      (← retargetProperties g kind (← trailingCommaOf span.lo) properties)
  | .ident id => return .ident id
  | .array span elements =>
    let kept := dropTrailingHoles elements
    if kept.length = elements.length then
      return .arrayPattern span
        (← retargetElements g kind (← trailingCommaOf span.lo) elements)
    else
      -- A rest element is followed by a comma here and so is not the last one.
      let kept ← retargetElements g kind none (kept ++ [.hole])
      return .arrayPattern span (kept.take (kept.length - 1))
  | v => noteInvalid v.span

/-- A value read again as a target, when an arrow or an equals sign follows it. -/
def retarget (g : Rules) (kind : TargetKind) (value : Node) : Parse Node := do
  match kind with
  | .assigned =>
    match value with
    | .object .. | .array .. => retargetPattern g kind value
    | v =>
      checkReference v
      return v
  | .assignedElement =>
    match value with
    | .object .. | .array .. | .assign .. => retargetPattern g kind value
    | .member .. | .index .. | .call .. | .construct .. | .literal .. | .ident _ | .function ..
    | .classValue .. | .paren .. | .template .. | .typed .. =>
      if !isSimpleTarget value then note value.span .notSimpleTarget
      return value
    | v =>
      note v.span .notPattern
      retargetPattern g kind v
  | _ => retargetPattern g kind value

def isAssignable : Node → Bool
  | .ident _ | .member .. | .index .. | .chain .. | .paren .. | .typed .. | .arrayPattern ..
  | .objectPattern .. | .invalid _ => true
  | _ => false

/-- The words that may stand in front of a parameter that is also a field. -/
def parameterModifiers : List String := ["public","protected","private","readonly"]

/-- Do the tokens behind a modifier show that it is one? -/
def seesModified : Parse Bool := do
  match ← peek? with
  | some (.word _) | some (.string ..) | some (.number _) | some (.bigint _) => return true
  | some t => return ["[",r"{","*","...","#"].any t.isSpelled
  | none => return false

def eatModifiers : Parse Bool := do
  if !(← isTyped) then return false
  let found ← collect
    (seesAny parameterModifiers <&&> seesModified <&&> notM lineBreakAhead)
    advance
  return !found.isEmpty

def parameterTarget (g : Rules) : Parse Node := do
  let start ← here
  let modified ← eatModifiers
  let target ← g.target false
  let optional ← if ← isTyped then do
      let optional ← eat "?"
      let _ ← typeAnnotation? g
      pure optional
    else pure false
  let target ← if ← eat "=" then do
      if optional then note target.span .optionalInitializer
      let value ← g.assignment
      if (← flags).inDeclare then note (← spanFrom start) .ambientInitializer
      pure (.withDefault (← spanFrom target.span.lo) target value)
    else pure target
  if modified then note (← spanFrom start) .parameterProperty
  return target

def parameters (g : Rules) : Parse (List Node) := do
  let (found,_) ← iterate (([] : List Node),(none : Option Span)) fun (found,rest) => do
    if (← atEnd) || (← sees ")") then return ((found,rest),false)
    else
      match rest with
      | some span => note span .restParameterNotLast
      | none => pure ()
      let start ← here
      let isRest ← eat "..."
      let parameter ← if isRest then do
          let target ← g.target false
          let target ← if ← eat "=" then do
              let value ← g.assignment
              note target.span .restInitializer
              pure (.withDefault (← spanFrom start) target value)
            else pure target
          let _ ← typeAnnotation? g
          let span ← spanFrom start
          if ← (isTyped <&&> eat "?") then note (← previousSpan) .restOptional
          pure (.rest span target)
        else parameterTarget g
      let rest := if isRest then some parameter.span else rest
      if !(← sees ")") then
        expect ","
        noteRestComma isRest ")"
      return ((parameter :: found,rest),true)
  return found.reverse

end PreviewCompiler.Script.Grammar
