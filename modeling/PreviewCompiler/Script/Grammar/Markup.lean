import PreviewCompiler.Script.Grammar.Access

namespace PreviewCompiler.Script.Grammar

open Parse

def tagWord : Parse Ident := do
  match ← token with
  | .tagName name =>
    let span ← hereSpan
    let _ ← advance
    return ⟨name,span,0⟩
  | _ => if (← flags).forcedTag then identifierUse else unexpected "jsx identifier"

/-- A name inside a tag with the space it is from, if that is written. -/
def tagQualified : Parse Node := do
  let start ← here
  let id ← tagWord
  if ← eat ":" then
    let name ← tagWord
    return .tagNamespaced (← spanFrom start) id.name name.name
  else return .ident id

/-- The first part of the name of an element.  A name that starts with a small letter and has no other
part is that of a kind of element and no variable. -/
def tagHead : Parse Node := do
  match ← tagQualified with
  | .ident id =>
    let isKind := match id.name.toList with
      | c :: _ => c.isLower
      | [] => false
    if id.name == "this" then return .thisWord id.span
    else if isKind && !(← sees ".") then return .keyName id.span id.name
    else return .ident id
  | n => return n

def tagPath : Parse Node := do
  let first ← tagHead
  iterate first fun object => do
    if ← eat "." then
      let name ← tagWord
      return (.member ⟨first.span.lo,name.span.hi⟩ object (.keyName name.span name.name),true)
    else return (object,false)

def tagText : Node → String
  | .ident id => id.name
  | .keyName _ name => name
  | .thisWord _ => "this"
  | .tagNamespaced _ space name => space ++ ":" ++ name
  | .member _ object (.keyName _ name) => tagText object ++ "." ++ name
  | _ => ""

def container (g : Rules) : Parse Node := do
  let start ← here
  expect r"{"
  let expr ← if ← sees r"}" then pure none else some <$> allowingIn true g.sequence
  expect r"}"
  return .container (← spanFrom start) expr

def tagAttributeValue (g : Rules) : Parse Node := do
  match ← token with
  | .string value raw =>
    let span ← hereSpan
    let _ ← advance
    return .literal span (.string value (some raw))
  | .tagOpen => g.markup
  | t =>
    if t.isSpelled r"{" then
      match ← container g with
      | .container span none => refuse span .attributeEmpty
      | value => return value
    else refuse (← hereSpan) .attributeValue

def tagAttribute (g : Rules) : Parse Node := do
  let start ← here
  if ← eat r"{" then
    let dots ← here
    expect "..."
    let dots ← spanFrom dots
    let value ← g.assignment
    expect r"}"
    return .spread dots value
  let name ← tagQualified
  let name := match name with
    | .ident id => Node.keyName id.span id.name
    | other => other
  let value ← if ← eat "=" then
      withFlags (fun f => { f with inCondition := false, expectColon := false })
        (some <$> tagAttributeValue g)
    else pure none
  return .tagAttribute (← spanFrom start) name value

def eatTagClose : Parse Bool := do
  if (← token?) == some .tagClose || ((← flags).forcedTag && (← sees ">")) then
    let _ ← advance
    return true
  else return false

def expectTagClose : Parse Unit := do
  if !(← eatTagClose) then unexpected "> (jsx closing tag)"

structure OpeningTag where
  /-- The name, unless the tag opens a fragment. -/
  name : Option Node
  attributes : List Node
  isClosed : Bool

def openingTag (g : Rules) : Parse OpeningTag := do
  if ← eatTagClose then return ⟨none,[],false⟩
  let name ← tagPath
  if (← isTyped) && (← sees "<") then
    let _ ← attempt do
      typeArguments g
      return some ()
  let attributes ← collect
    (do
      if ← atEnd then return false
      let t ← token
      return t != .tagClose && !t.isSpelled "/" && !((← flags).forcedTag && t.isSpelled ">"))
    (tagAttribute g)
  let isClosed ← eat "/"
  expectTagClose
  return ⟨some name,attributes,isClosed⟩

/-- The rest of a closing tag behind its slash, and where the tag stands. -/
def closingTag (start : Nat) : Parse (Span × Option Node) := do
  if ← eatTagClose then return (← spanFrom start,none)
  let name ← tagPath
  expectTagClose
  return (← spanFrom start,some name)

def children (g : Rules) : Parse (List Node × Span × Option Node) := do
  let (found,closing) ← iterate (([] : List Node),(none : Option (Span × Option Node)))
    fun (found,closing) => do
      match ← token with
      | .tagText value _ =>
        let span ← hereSpan
        let _ ← advance
        return ((.tagText span value :: found,closing),true)
      | .tagOpen =>
        let start ← here
        if ← foresees "/" then
          let _ ← advance
          let _ ← token
          expect "/"
          return ((found,some (← closingTag start)),false)
        else return ((((← g.markup) :: found),closing),true)
      | t =>
        if t.isSpelled r"{" then
          if ← foresees "..." then
            let start ← here
            expect r"{"
            expect "..."
            let value ← g.sequence
            expect r"}"
            return ((.spreadChild (← spanFrom start) value :: found,closing),true)
          else return (((← container g) :: found,closing),true)
        else unexpected "< (jsx tag start), jsx text or \x7b"
  return (found.reverse,closing.getD (Span.synthetic,none))

def markup (g : Rules) : Parse Node := do
  let start ← here
  let forced ← sees "<"
  let _ ← token
  let _ ← advance
  withFlags (fun f => { f with forcedTag := forced, inPropertyName := false }) do
    let tag ← openingTag g
    match tag.name, tag.isClosed with
    | some name, true => return .element (← spanFrom start) name tag.attributes []
    | some name, false =>
      let (children,span,closing) ← children g
      match closing with
      | some other => if tagText other ≠ tagText name then refuse span (.closingTag (tagText name))
      | none => refuse span (.closingTag (tagText name))
      return .element (← spanFrom start) name tag.attributes children
    | none, _ =>
      let (children,span,closing) ← children g
      if closing.isSome then refuse span .closingFragment
      return .fragment (← spanFrom start) children

end PreviewCompiler.Script.Grammar
