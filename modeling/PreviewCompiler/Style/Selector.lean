import PreviewCompiler.Style.Input
import PreviewCompiler.Style.Value

namespace PreviewCompiler.Style

inductive Combinator where
  | descendant
  | child
  | next
  | later
  deriving DecidableEq, Repr

inductive Part where
  | element (name : String)
  | any
  | id (name : String)
  | named (name : String)
  | parent
  | attribute (name : String) (test : Option (Token × String × Option String))
  | pseudoClass (name : String)
  | pseudoElement (name : String)
  | matching (name : String) (choices : List (List Part))
  | applied (colons name argument : String)
  | combinator (c : Combinator)
  deriving Repr

/-- A chain of parts: names, classes, states and so on, with combinators between them. -/
abbrev Selector := List Part

namespace Part

def isCombinator : Part → Bool
  | combinator _ => true
  | _ => false

def isParent : Part → Bool
  | parent => true
  | _ => false

/-- Must the part stand first? -/
def isElement : Part → Bool
  | element _ | any => true
  | _ => false

end Part

namespace Selector

/-- Pseudo-elements that are also written with one colon. -/
def oldPseudoElements : List String := ["before","after","first-line","first-letter"]

def matchingNames : List String := ["is","not","where","has","any","-webkit-any","-moz-any"]

/-- A place in a row, `step` apart from `offset` on, as short as it goes. -/
def stepText (step offset : Int) : String :=
  let signed (n : Int) : String := if n < 0 then toString n else "+" ++ toString n
  let front := if step = 1 then "n" else if step = -1 then "-n" else toString step ++ "n"
  if step = 2 ∧ offset = 1 then "odd"
  else if step = 0 then toString offset
  else if offset = 0 then front
  else front ++ signed offset

def signedValue? (cs : List Char) : Option Int :=
  let digits := cs.dropWhile fun c => c == '+' || c == '-'
  if digits.isEmpty || !digits.all Char.isDigit then none
  else if cs.head? == some '-' then some (-(decimalValue digits : Int))
  else some (decimalValue digits)

/-- The argument of a function that counts, if it is nothing but a step and an offset. -/
def countText? (s : String) : Option String :=
  if s = "even" then some "2n"
  else if s = "odd" then some "odd"
  else
    let cs := s.toList
    let front := cs.takeWhile (· != 'n')
    if front.length = cs.length then (signedValue? cs).map (stepText 0)
    else do
      let step ← match front with
        | [] | ['+'] => some 1
        | ['-'] => some (-1)
        | front => signedValue? front
      let back := cs.drop (front.length + 1)
      let offset ← if back.isEmpty then some 0 else signedValue? back
      return stepText step offset

/-- The argument of a function that is not one of selectors. -/
def argumentText (inner : List Piece) : String :=
  let tight := String.join ((inner.filter (!·.isBlank)).map fun p => Value.tokenText p.head)
  (countText? (lowercase tight)).getD (Value.text true (Value.ofPieces inner))

def attributeOperators : List Token :=
  [.delim '=',.includeMatch,.dashMatch,.frontMatch,.endMatch,.substringMatch]

def attributePart : Parse Part := do
  Parse.skipBlanks
  let name ← Parse.next
  let name ← match name.head with
    | .ident s => pure s
    | t => Parse.fail (.attributeName t)
  let place ← Parse.place
  Parse.skipBlanks
  match ← Parse.peek? with
  | none => return .attribute name none
  | some operator =>
    if !attributeOperators.contains operator.head then
      Parse.failAt place (.attributeOperator operator.head)
    Parse.skip
    let place ← Parse.place
    Parse.skipBlanks
    let value ← match (← Parse.next).head with
      | .ident s | .string s => pure s
      | t => Parse.failAt place (.attributeValue t)
    Parse.skipBlanks
    match ← Parse.peek? with
    | some (.token (.ident flag) _ _) =>
      Parse.skip
      return .attribute name (some (operator.head,value,some (lowercase flag)))
    | _ => return .attribute name (some (operator.head,value,none))

structure Progress where
  isEmpty : Bool := true
  /-- There was a pseudo-element, behind which little may follow. -/
  isDone : Bool := false
  parts : List Part := []

namespace Progress

def push (part : Part) (p : Progress) : Progress := { p with isEmpty := false, parts := p.parts ++ [part] }

end Progress

/-- The part behind colons; `inner` reads selectors between brackets. -/
def pseudo (inner : Input → Parse (List Selector)) (p : Progress) : Parse Progress := do
  let first ← Parse.next
  let isDouble := first.head == .colon
  let piece ← if isDouble then Parse.next else pure first
  match piece.head with
  | .ident name =>
    let name := lowercase name
    if isDouble || oldPseudoElements.contains name then
      if p.isDone then Parse.fail (.afterPseudoElement piece.head)
      return { p.push (.pseudoElement name) with isDone := true }
    else return p.push (.pseudoClass name)
  | .function name =>
    let name := lowercase name
    let content := Input.inside piece
    if isDouble then
      return { p.push (.applied "::" name (argumentText content.rest)) with isDone := true }
    else if matchingNames.contains name then return p.push (.matching name (← inner content))
    else return p.push (.applied ":" name (argumentText content.rest))
  | t => Parse.fail (.pseudoName t)

/-- One more part of a compound, if there is one. -/
def part? (inner : Input → Parse (List Selector)) (p : Progress) : Parse (Option Progress) := do
  let place ← Parse.place
  match ← Parse.peek? with
  | none => return none
  | some piece =>
    match piece.head with
    | .ident name =>
      if p.isEmpty then
        Parse.skip
        return some (p.push (.element name))
      else return none
    | .delim '*' =>
      if p.isEmpty then
        Parse.skip
        return some (p.push .any)
      else return none
    | .idHash name =>
      if p.isDone then Parse.failAt place (.afterPseudoElement piece.head)
      Parse.skip
      return some (p.push (.id name))
    | .delim '.' =>
      if p.isDone then Parse.failAt place (.afterPseudoElement piece.head)
      Parse.skip
      let place ← Parse.place
      match (← Parse.next).head with
      | .ident name => return some (p.push (.named name))
      | t => Parse.failAt place (.className t)
    | .opening .square =>
      if p.isDone then Parse.failAt place (.afterPseudoElement piece.head)
      Parse.skip
      return some (p.push (← Parse.ofExcept (Parse.runAll attributePart (Input.inside piece))))
    | .colon =>
      Parse.skip
      return some (← pseudo inner p)
    | .delim '&' =>
      Parse.skip
      return some (p.push .parent)
    | _ => return none

/-- Parts without combinators; `fuel` bounds how many. -/
def compound (inner : Input → Parse (List Selector)) : (fuel : Nat) → Progress → Parse Progress
  | 0, p => return p
  | fuel + 1, p => do
    match ← part? inner p with
    | some p => compound inner fuel p
    | none => return p

/-- The combinator that comes next, if another compound follows. -/
def combinator? : Parse (Option Combinator) := do
  let start ← get
  Parse.skipBlanks
  let isSpaced := start.rest.head?.any Piece.isBlank
  match ← Parse.peek? with
  | none => return none
  | some piece =>
    match piece.head with
    | .delim '>' =>
      Parse.skip
      return some .child
    | .delim '+' =>
      Parse.skip
      return some .next
    | .delim '~' =>
      Parse.skip
      return some .later
    | _ =>
      if isSpaced then return some .descendant
      else
        set start
        return none

/-- The compounds of a selector, `taken` being read; `fuel` bounds how many follow. -/
def compounds (inner : Input → Parse (List Selector)) : (fuel : Nat) → (taken : Selector) → Parse Selector
  | 0, taken => return taken
  | fuel + 1, taken => do
    Parse.skipBlanks
    let p ← compound inner ((← get).rest.length) {}
    if p.isEmpty then
      Parse.fail (if taken.isEmpty then .emptySelector else .danglingCombinator)
    let taken := taken ++ p.parts
    if p.isDone then return taken
    match ← combinator? with
    | some c => compounds inner fuel (taken ++ [.combinator c])
    | none => return taken

/-- The selectors between commas; `depth` bounds how deep functions of selectors may be nested. -/
def list : (depth : Nat) → Input → Except Fault (List Selector)
  | 0, i => .error ⟨.emptySelector,i.place⟩
  | depth + 1, i =>
    (i.splitCommas i.rest.length).mapM fun part =>
      Parse.runAll (compounds (fun i => Parse.ofExcept (list depth i)) (part.rest.length + 1) []) part

/-- How deep functions of selectors may be nested. -/
def depthLimit : Nat := 64

def parse (i : Input) : Except Fault (List Selector) := list depthLimit i.dropBlanks

/-- A selector of a rule in another rule, which is meant below the rule around if it does not say otherwise.
It may begin with a combinator. -/
def parseNested (i : Input) : Except Fault (List Selector) :=
  (i.splitCommas i.rest.length).mapM fun part => do
    let part := part.dropBlanks
    let leading : Option Combinator := match part.rest.head?.map Piece.head with
      | some (.delim '>') => some .child
      | some (.delim '+') => some .next
      | some (.delim '~') => some .later
      | _ => none
    let part := if leading.isSome then part.drop 1 else part
    match ← list depthLimit part with
    | [s] =>
      match leading with
      | some c => return .parent :: .combinator c :: s
      | none => return if s.any Part.isParent then s else .parent :: .combinator .descendant :: s
    | _ => throw ⟨.emptySelector,part.place⟩

/-- The selectors of the rule around, when they are put in the place of the parent sign. -/
structure Parent where
  text : String
  /-- Does it begin with the name of an element? -/
  beginsWithElement : Bool
  isCompound : Bool

structure Format where
  minify : Bool
  /-- The selectors for the parent sign, where that is not kept. -/
  parents : Option (List Parent) := none

def combinatorText (minify : Bool) : Combinator → String
  | .descendant => " "
  | .child => Value.delimText minify true '>'
  | .next => Value.delimText minify true '+'
  | .later => Value.delimText minify true '~'

/-- The value of an attribute, as an identifier if that is shorter. -/
def attributeValueText (s : String) : String :=
  let bare := Value.identText s
  let quoted := Value.stringText s
  if !bare.isEmpty && bare.utf8ByteSize < quoted.utf8ByteSize then bare else quoted

/-- The text for a parent sign, which stands first or not. -/
def parentText (st : Format) (isFirst : Bool) : String :=
  match st.parents with
  | none => "&"
  | some [] => ":scope"
  | some [p] =>
    if isFirst || (!p.beginsWithElement && p.isCompound) then p.text else ":is(" ++ p.text ++ ")"
  | some ps => ":is(" ++ (if st.minify then "," else ", ").intercalate (ps.map Parent.text) ++ ")"

mutual

def partText (st : Format) : Part → String
  | .element name => Value.identText name
  | .any => "*"
  | .id name => "#" ++ Value.identText name
  | .named name => "." ++ Value.identText name
  | .parent => parentText st false
  | .attribute name none => "[" ++ Value.identText name ++ "]"
  | .attribute name (some (operator,value,flag)) =>
    "[" ++ Value.identText name ++ Value.tokenText operator ++ attributeValueText value
      ++ (match flag with
        | some f => " " ++ f
        | none => "")
      ++ "]"
  | .pseudoClass name => ":" ++ Value.identText name
  | .pseudoElement name =>
    (if oldPseudoElements.contains name then ":" else "::") ++ Value.identText name
  | .matching name choices =>
    ":" ++ name ++ "(" ++ (if st.minify then "," else ", ").intercalate (choicesText st choices) ++ ")"
  | .applied colons name argument => colons ++ name ++ "(" ++ argument ++ ")"
  | .combinator c => combinatorText st.minify c

def partsText (st : Format) : List Part → String
  | [] => ""
  | p :: ps => partText st p ++ partsText st ps

def choicesText (st : Format) : List (List Part) → List String
  | [] => []
  | s :: ss => partsText st s :: choicesText st ss

end

/-- Is a star needed in front of these parts? -/
def needsAny (rest : List Part) : Bool := rest.isEmpty || rest.head?.any Part.isCombinator

/-- The selector without stars that change nothing. -/
def dropAny : Selector → Selector
  | .any :: ps => if needsAny ps then .any :: dropAny ps else dropAny ps
  | p :: ps => p :: dropAny ps
  | [] => []

/-- The text of a selector.  A parent sign at its beginning that is replaced goes behind the name of an
element. -/
def text (st : Format) (s : Selector) : String :=
  let s := dropAny s
  match st.parents, s with
  | some _, .parent :: .element name :: ps => partsText st (.element name :: .parent :: ps)
  | some _, .parent :: ps => parentText st true ++ partsText st ps
  | _, s => partsText st s

def listText (st : Format) (ss : List Selector) : String :=
  (if st.minify then "," else ", ").intercalate (ss.map (text st))

/-- The selector as the one around others. -/
def toParent (st : Format) (s : Selector) : Parent :=
  { text := text st s
    beginsWithElement := s.head?.any Part.isElement
    isCompound := !s.any Part.isCombinator }

end Selector

end PreviewCompiler.Style
