import PreviewCompiler.Script.Grammar.Function

namespace PreviewCompiler.Script.Grammar

open Parse

/-- The words in front of a member, without the ones that only types give a meaning. -/
structure MemberModifiers where
  isStatic : Bool := false
  isAbstract : Bool := false
  isDeclare : Bool := false
  isReadonly : Bool := false
  deriving Inhabited

def memberModifierWords : List String :=
  ["declare","public","private","protected","static","abstract","readonly","override"]

def seesMethod : Parse Bool := do
  return (← sees "(") || ((← isTyped) && ((← sees "<") || (← seesTagOpen)))

/-- Is the member behind its key a field?  The end of a line counts only if `lineEnds`. -/
def seesField (lineEnds : Bool) : Parse Bool := do
  if (← isTyped) && (← seesAny ["!",":"]) then return true
  if ← seesAny ["=",";",r"}"] then return true
  if lineEnds then seesEnd else return false

def memberModifiers : Parse MemberModifiers :=
  iterate {} fun m => do
    let words := if ← isTyped then memberModifierWords else ["static"]
    if !(← seesAny words) then return (m,false)
    let isStatic ← sees "static"
    let modifies ←
      if isStatic then
        match ← peek? with
        | some t => pure !(["(","<","=",";",r"}","?","!",":"].any t.isSpelled)
        | none => pure false
      else seesModified <&&> notM lineBreakAhead
    if !modifies then return (m,false)
    match ← token with
    | .word "static" =>
      let _ ← advance
      return ({ m with isStatic := true },true)
    | .word w =>
      let _ ← advance
      if w == "abstract" && m.isAbstract then note (← previousSpan) (.modifierTwice w)
      return ({ m with
        isAbstract := m.isAbstract || w == "abstract"
        isDeclare := m.isDeclare || w == "declare"
        isReadonly := m.isReadonly || w == "readonly" },true)
    | _ => return (m,false)

def classKey (g : Rules) : Parse Node := do
  if ← sees "#" then
    let key ← privateName
    match key with
    | .privateName span "constructor" => note span .constructorPrivate
    | _ => pure ()
    return key
  else propertyKey g

def isConstructorKey : Node → Bool
  | .keyName _ name => name == "constructor"
  | .literal _ (.string value _) => value == "constructor"
  | _ => false

def isKeyWord (word : String) : Node → Bool
  | .keyName _ name => name == word
  | _ => false

def fieldFrom (g : Rules) (start : Nat) (m : MemberModifiers) (key : Node) : Parse Node := do
  if isConstructorKey key then refuse key.span .constructorProperty
  if ← isTyped then
    let _ ← eat "!"
    let _ ← typeAnnotation? g
  withFlags (fun f => { f with allowIn := true, inClassField := true, inMethod := true }) do
    let value ← if ← eat "=" then some <$> g.assignment else pure none
    if !(← eatEnd) then note (← hereSpan) .semicolonMissing
    return .classField (← spanFrom start) m.isStatic (m.isDeclare || m.isAbstract) key value

def methodFrom (g : Rules) (start : Nat) (m : MemberModifiers) (kind : MethodKind) (key : Node)
    (isAsync isGenerator : Bool) : Parse Node := do
  let function ← methodTail g start isAsync isGenerator (checkAccessor key.span kind)
  let span ← spanFrom start
  match m.isAbstract, function with
  | true, .function _ _ _ _ _ (some _) => note span .abstractBody
  | _, _ => pure ()
  return .classMethod span kind m.isStatic m.isAbstract key function

def memberFrom (g : Rules) (start : Nat) (m : MemberModifiers) : Parse Node := do
  if m.isStatic && (← sees r"{") then
    let body ← withoutLabels (withFlags
      (fun f => { f with
        inStaticBlock := true, inAsync := false, inGenerator := false, inMethod := true,
        inClassField := true, breakAllowed := false, continueAllowed := false })
      (block g))
    return .staticBlock (← spanFrom start) body
  if (← isTyped) && !m.isAbstract then
    if ← indexSignature? g then return .typeMember (← spanFrom start)
  if ← eat "*" then
    let key ← classKey g
    if m.isReadonly then note (← spanFrom start) .methodReadonly
    if isConstructorKey key then note (← spanFrom start) .constructorGenerator
    return ← methodFrom g start m .plain key false true
  let key ← classKey g
  if ← isTyped then
    let _ ← eat "?"
  if ← seesMethod then
    if m.isReadonly then refuse (← spanFrom start) .methodReadonly
    let kind : MethodKind := if isConstructorKey key && !m.isStatic then .constructor else .plain
    return ← methodFrom g start m kind key false false
  let generatorFollows := (← afterLineBreak) && (← sees "*")
  let isAccessor := (isKeyWord "get" key || isKeyWord "set" key) && !generatorFollows
    && !(← seesField false)
  if !isAccessor && (← seesField true) then return ← fieldFrom g start m key
  if isKeyWord "async" key && !(← afterLineBreak) then
    let isGenerator ← eat "*"
    let key ← classKey g
    if isConstructorKey key then refuse key.span .constructorAsync
    if ← isTyped then
      let _ ← eat "?"
    return ← methodFrom g start m .plain key true isGenerator
  if isAccessor then
    let kind : MethodKind := if isKeyWord "get" key then .getter else .setter
    let wordSpan := key.span
    let key ← classKey g
    if isConstructorKey key then note wordSpan .constructorAccessor
    return ← methodFrom g start m kind key false false
  unexpected "* for generator, private key, identifier or async"

def classMember (g : Rules) : Parse Node := do
  let start ← here
  memberFrom g start (← memberModifiers)

/-- Does this member give the class a constructor that can run? -/
def isConstructorWithBody : Node → Bool
  | .classMethod _ .constructor _ _ _ (.function _ _ _ _ _ (some _)) => true
  | _ => false

def classBody (g : Rules) : Parse (List Node) := do
  let (members,_) ← iterate (([] : List Node),false) fun (found,constructed) => do
    if (← atEnd) || (← sees r"}") then return ((found,constructed),false)
    else if ← eat ";" then return ((.empty (← previousSpan) :: found,constructed),true)
    else
      let m ← classMember g
      let constructs := isConstructorWithBody m && !(← flags).inDeclare
      if constructs && constructed then note m.span .constructorTwice
      return ((m :: found,constructed || constructs),true)
  return members.reverse

def superclass (g : Rules) : Parse Node := do
  let value ← g.leftHand
  if (← isTyped) && (← sees "<") then typeArguments g
  return value

def noteRepeatedClauses (g : Rules) (extended : Bool) : Parse Unit := do
  if ← eat "extends" then
    note (← previousSpan) .extendsTwice
    let _ ← superclass g
  if ← isTyped then
    if ← eat "implements" then heritage g
    if ← eat "implements" then
      note (← previousSpan) .implementsTwice
      heritage g
    if ← eat "extends" then
      note (← previousSpan) (if extended then .extendsTwice else .extendsAfterImplements)
      let _ ← superclass g

/-- A class, from its keyword on; its span starts at `start`. -/
def classFrom (g : Rules) (start : Nat) (nameRequired : Bool) : Parse Node := do
  expect "class"
  let name ← if nameRequired then some <$> identifierBinding true else identifierBinding? true
  if ← isTyped then typeParameters? g
  let base ← if ← eat "extends" then some <$> superclass g else pure none
  if ← (pure base.isSome <&&> isTyped <&&> eat ",") then
    note (← hereSpan) .superclassCount
    heritage g
  noteRepeatedClauses g base.isSome
  expect r"{"
  let members ← withFlags (fun f => { f with inClass := true }) (classBody g)
  if ← atEnd then note (← hereSpan) (.expected r"}" "<eof>")
  else expect r"}"
  return .classValue (← spanFrom start) name base members

end PreviewCompiler.Script.Grammar
