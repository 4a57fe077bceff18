import PreviewCompiler.Style.Arrangement
import PreviewCompiler.Style.Media
import PreviewCompiler.Style.Selector

namespace PreviewCompiler.Style

inductive Rule where
  | style (selectors : List Selector) (declarations : List Declaration) (rules : List Rule)
  /-- Declarations that stand behind rules in a rule. -/
  | declarations (ds : List Declaration)
  | media (queries : List MediaQuery) (rules : List Rule)
  | importing (address : String) (queries : List MediaQuery)
  | other (name : String) (head : List Value) (body : Option (List Value))
  deriving Repr

namespace Rule

def isBroken : Token → Bool
  | .badString _ | .badUrl _ | .closing _ => true
  | _ => false

mutual

def broken? : Piece → Option (Token × Place)
  | .token t start _ => if isBroken t then some (t,start) else none
  | .block _ inner _ _ _ _ => firstBroken? inner

def firstBroken? : List Piece → Option (Token × Place)
  | [] => none
  | p :: ps => (broken? p) <|> firstBroken? ps

end

def isSemicolon (p : Piece) : Bool := p.head == .semicolon

def isCurly (p : Piece) : Bool := p.head == .opening .curly

def isBang (p : Piece) : Bool := p.head == .delim '!'

/-- Is there an exclamation mark with the word for importance?  Goes past them. -/
def importance : Parse Bool := do
  let start ← get
  Parse.skipBlanks
  if (← Parse.peek?).any isBang then
    Parse.skip
    Parse.skipBlanks
    match ← Parse.peek? with
    | some (.token (.ident s) _ _) =>
      if lowercase s = "important" then
        Parse.skip
        return true
    | _ => pure ()
  set start
  return false

def declaration (name : String) : Parse Declaration := do
  let place ← Parse.place
  Parse.skipBlanks
  let colon ← Parse.next
  if colon.head != .colon then Parse.failAt place (.unexpectedToken colon.head)
  let isCustom := name.startsWith "--"
  let i ← get
  let value := i.before fun p => isBang p || (!isCustom && isCurly p)
  match firstBroken? value.rest with
  | some (t,place) => Parse.failAt place (.unexpectedToken t)
  | none => pure ()
  set (i.drop value.rest.length)
  let isImportant ← importance
  Parse.exhausted
  let name := if isCustom then name else lowercase name
  return { name, value := .ofPieces name value.rest, isImportant }

/-- What a list of rules and declarations may hold. -/
inductive Scope where
  /-- The top of a stylesheet; imports may still follow. -/
  | top (importsAllowed : Bool)
  | rules
  /-- Declarations and rules that are meant below others. -/
  | nested
  deriving DecidableEq, Repr

def Scope.isNested : Scope → Bool
  | nested => true
  | _ => false

inductive Item where
  | declaration (d : Declaration)
  | rule (r : Rule)

/-- The items with the declarations that follow upon each other put together. -/
def group (items : List Item) : List Rule :=
  (items.foldr
    (fun item rules => match item, rules with
      | .declaration d, .declarations ds :: rules => .declarations (d :: ds) :: rules
      | .declaration d, rules => .declarations [d] :: rules
      | .rule r, rules => r :: rules)
    [])

/-- The rule with some selectors; declarations at its beginning are its own. -/
def ofItems (selectors : List Selector) (items : List Item) : Rule :=
  match group items with
  | .declarations ds :: rules => .style selectors ds rules
  | rules => .style selectors [] rules

def qualified (body : Scope → Input → Except Fault (List Item)) (scope : Scope) : Parse Rule := do
  let i ← get
  let front := i.before fun p => isCurly p || (scope.isNested && isSemicolon p)
  let selectors := if scope.isNested then Selector.parseNested front else Selector.parse front
  set (i.drop front.rest.length)
  let block ← Parse.next
  if !isCurly block then throw ⟨.endOfInput,front.stop⟩
  let selectors ← Parse.ofExcept selectors
  return ofItems selectors (← Parse.ofExcept (body .nested (Input.inside block)))

def address (place : Place) : Parse String := do
  match ← Parse.next with
  | .token (.string s) _ _ | .token (.url s) _ _ => return s
  | .block (.function name) inner start a b stop =>
    match inner.filter (!·.isBlank), isUrlName name with
    | [.token (.string s) _ _], true => return s
    | _, _ => Parse.failAt place (.unexpectedToken (Piece.block (.function name) inner start a b stop).head)
  | p => Parse.failAt place (.unexpectedToken p.head)

/-- A rule that begins with `@` behind its name; none if it has no effect. -/
def atRule (body : Scope → Input → Except Fault (List Item)) (scope : Scope) (name : String) :
    Parse (Option Rule) := do
  let i ← get
  let front := i.before fun p => isCurly p || isSemicolon p
  let behind := i.drop (front.rest.length + 1)
  let block := (i.rest.drop front.rest.length).head?
  let inner := (block.filter isCurly).map Input.inside
  match lowercase name, scope with
  | "media", _ =>
    let queries ← Parse.ofExcept (Media.list front)
    match inner with
    | none => throw ⟨.unexpectedToken .semicolon,behind.place⟩
    | some content =>
      let items ← Parse.ofExcept (body (if scope.isNested then .nested else .rules) content)
      set behind
      return some (.media queries (group items))
  | "import", .top isAllowed =>
    if !isAllowed then Parse.fail .lateImport
    let read : Parse (String × List MediaQuery) := do
      let place ← Parse.place
      Parse.skipBlanks
      let address ← address place
      let queries ← Parse.ofExcept (Media.list (← get))
      set ({ rest := [], here := front.stop, stop := front.stop } : Input)
      return (address,queries)
    let (address,queries) ← Parse.ofExcept (Parse.runAll read front)
    if inner.isSome then throw ⟨.unexpectedToken (.opening .curly),front.stop⟩
    set behind
    return some (.importing address queries)
  | "charset", .top _ =>
    set behind
    return none
  | _, _ =>
    match firstBroken? front.rest with
    | some (t,place) => Parse.failAt place (.unexpectedToken t)
    | none => pure ()
    set behind
    let head := if front.rest.all Piece.isBlank then [] else Value.ofPieces front.rest
    return some (.other name head (inner.map fun content => Value.ofPieces content.rest))

def named (body : Scope → Input → Except Fault (List Item)) (name : String) (start : Input) : Parse Item := do
  let i ← get
  let front := i.before isSemicolon
  match Parse.runAll (declaration name) front with
  | .ok d =>
    set (i.drop (front.rest.length + 1))
    return .declaration d
  | .error f =>
    match EStateM.run (qualified body .nested) start with
    | .ok r behind =>
      set behind
      return .rule r
    | .error _ _ => throw f

/-- The next item; none if there is nothing or it has no effect. -/
def item (body : Scope → Input → Except Fault (List Item)) (scope : Scope) : Parse (Option Item) := do
  let start ← get
  match start.rest.head?.map Piece.head with
  | some (.atKeyword name) =>
    Parse.skip
    return (← atRule body scope name).map .rule
  | some (.ident name) =>
    if scope.isNested then
      Parse.skip
      return some (← named body name start)
    else return some (.rule (← qualified body scope))
  | some _ => return some (.rule (← qualified body scope))
  | none => return none

/-- Is this passed over between items? -/
def isPassed (scope : Scope) (p : Piece) : Bool :=
  p.isBlank || match scope with
    | .top _ => p.head == .commentOpen || p.head == .commentClose
    | .rules => false
    | .nested => isSemicolon p

/-- The scope behind an item: a rule that is no import ends the imports. -/
def Scope.after (scope : Scope) (found : Option Item) : Scope :=
  match scope, found with
  | .top isAllowed, some (.rule (.importing ..)) => .top isAllowed
  | .top _, some _ => .top false
  | scope, _ => scope

/-- The items of an input; `fuel` bounds how many there are, and how deep they are nested. -/
def items : (fuel : Nat) → Scope → Input → Except Fault (List Item)
  | 0, _, _ => .ok []
  | fuel + 1, scope, i =>
    let i := i.drop (i.rest.takeWhile (isPassed scope)).length
    if i.rest.isEmpty then .ok []
    else
      match EStateM.run (item (items fuel) scope) i with
      | .error f _ => .error f
      | .ok found behind => do
        let rest ← items fuel (scope.after found) behind
        return found.toList ++ rest

def parse (tokens : List Located) : Except Fault (List Rule) :=
  let (ps,stop) := pieces tokens
  group <$> items (tokens.length + 1) (.top true) ⟨ps,{},stop⟩

def selectorKey (ss : List Selector) : String := Selector.listText { minify := true } ss

def declarationKey (ds : List Declaration) : List String := ds.flatMap (Declaration.lines true)

def propertyKey (ds : List Declaration) : List (String × Bool) := ds.map fun d => (d.name,d.isImportant)

/-- One rule for two that follow upon each other, if they have the same selectors or the same
declarations. -/
def merge? (forOldBrowsers : Bool) (first second : Rule) : Option Rule :=
  match first, second with
  | .style ss ds [], .style ss' ds' [] =>
    if selectorKey ss = selectorKey ss' then some (.style ss (arrange forOldBrowsers (ds ++ ds')) [])
    else if declarationKey ds = declarationKey ds' then some (.style (ss ++ ss') ds [])
    else none
  | _, _ => none

/-- Merge the latest rules, which stand in front, as long as that goes; `fuel` bounds how often. -/
def mergeBack (forOldBrowsers : Bool) : (fuel : Nat) → List Rule → List Rule
  | fuel + 1, second :: first :: rules =>
    match merge? forOldBrowsers first second with
    | some r => mergeBack forOldBrowsers fuel (r :: rules)
    | none => second :: first :: rules
  | _, rules => rules

/-- Does a later rule set all that this one sets, for the same elements? -/
def isOverridden (later : Rule) : Rule → Bool
  | .style ss ds [] =>
    match later with
    | .style ss' ds' [] => selectorKey ss == selectorKey ss' && propertyKey ds == propertyKey ds'
    | _ => false
  | _ => false

def mediaKey (qs : List MediaQuery) : String := Media.listText ⟨true,false⟩ qs

/-- Put a rule behind those that are kept, the latest of which is in front. -/
def append (forOldBrowsers : Bool) (kept : List Rule) (r : Rule) : List Rule :=
  match r with
  | .style _ [] [] | .declarations [] | .media _ [] => kept
  | .style .. =>
    let merged := mergeBack forOldBrowsers (kept.length + 1) (r :: kept)
    if merged.length ≤ kept.length then merged
    else r :: kept.filter (!isOverridden r ·)
  | .media qs rules =>
    if qs.any Media.neverMatches && qs.length = 1 then kept
    else
      match kept with
      | .media qs' rules' :: kept' =>
        if mediaKey qs = mediaKey qs' then .media qs (rules' ++ rules) :: kept' else r :: kept
      | _ => r :: kept
  | r => r :: kept

mutual

/-- A rule with its declarations in order and without rules that have no effect. -/
def simplify (forOldBrowsers : Bool) : Rule → Rule
  | .style ss ds rules => .style ss (arrange forOldBrowsers ds) (simplifyAll forOldBrowsers [] rules)
  | .declarations ds => .declarations (arrange forOldBrowsers ds)
  | .media qs rules => .media qs (simplifyAll forOldBrowsers [] rules)
  | r => r

/-- All rules, `kept` being those in front of them, the latest one first. -/
def simplifyAll (forOldBrowsers : Bool) (kept : List Rule) : List Rule → List Rule
  | [] => kept.reverse
  | r :: rules => simplifyAll forOldBrowsers (append forOldBrowsers kept (simplify forOldBrowsers r)) rules

end

end Rule

end PreviewCompiler.Style
