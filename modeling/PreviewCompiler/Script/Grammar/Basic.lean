import PreviewCompiler.Script.Lexer
import PreviewCompiler.Script.Binding

namespace PreviewCompiler.Script

structure Flags where
  inDeclare : Bool := false
  inAsync : Bool := false
  inGenerator : Bool := false
  inFunction : Bool := false
  inParameters : Bool := false
  inStaticBlock : Bool := false
  inClassField : Bool := false
  inClass : Bool := false
  allowIn : Bool := true
  inCondition : Bool := false
  expectColon : Bool := false
  breakAllowed : Bool := false
  continueAllowed : Bool := false
  /-- The tag was opened by a mark that the lexer took for a comparison. -/
  forcedTag : Bool := false
  inType : Bool := false
  angleOperators : Bool := false
  inPropertyName : Bool := false
  /-- A function that is no arrow encloses the place. -/
  inPlainFunction : Bool := false
  /-- `super` has a meaning here. -/
  inMethod : Bool := false
  ignoreFaults : Bool := false

structure Reading where
  dialect : Dialect
  /-- All characters, for what is read again. -/
  source : List Char
  lexer : Lexer
  current : Option Lexeme := none
  upcoming : Option Lexeme := none
  previousSpan : Span := ⟨1,1⟩
  flags : Flags := {}
  labels : List String := []
  /-- Where a value may turn out to be the head of an arrow function. -/
  arrowStart : Option Nat := none
  /-- The commas in front of a closing bracket, by the offset of the opening bracket. -/
  trailingCommas : List (Nat × Span) := []

/-- The reading with its faults noted (`false`) or not. -/
def Reading.quiet (r : Reading) (ignore : Bool) : Reading :=
  { r with flags := { r.flags with ignoreFaults := ignore } }

/-- Reads tokens one after the other.  The state behind a failure is kept, since the rule that called may look
at the token there and go on. -/
abbrev Parse := EStateM Fault Reading

namespace Parse

def mode (r : Reading) : LexMode :=
  ⟨r.flags.inType,r.flags.angleOperators,r.flags.inPropertyName⟩

def lex (r : Reading) : Option Lexeme × Reading :=
  let (t,l) := r.lexer.next r.dialect (mode r)
  (t,{ r with lexer := if r.flags.ignoreFaults then { l with faults := r.lexer.faults } else l })

/-- The current lexeme, read now if it was not read before; `none` at the end. -/
def lexeme? : Parse (Option Lexeme) := do
  let r ← get
  match r.current with
  | some t => return some t
  | none =>
    match r.upcoming with
    | some t =>
      set { r with current := some t, upcoming := none }
      return some t
    | none =>
      let (t,r) := lex r
      set { r with current := t }
      return t

def token? : Parse (Option Token) := return (← lexeme?).map (·.token)

def upcoming? : Parse (Option Lexeme) := do
  let _ ← lexeme?
  let r ← get
  match r.current, r.upcoming with
  | none, _ => return none
  | _, some t => return some t
  | _, none =>
    let (t,r) := lex r
    set { r with upcoming := t }
    return t

def peek? : Parse (Option Token) := return (← upcoming?).map (·.token)

def advance : Parse (Option Token) := do
  match ← lexeme? with
  | some t =>
    modify fun r => { r with current := none, previousSpan := t.span }
    return some t.token
  | none => return none

def note (span : Span) (cause : Cause) : Parse Unit :=
  modify fun r =>
    if r.flags.ignoreFaults then r
    else { r with lexer := r.lexer.note span cause }

/-- Stop with a fault; characters that form no token are noted first. -/
def refuse {α : Type} (span : Span) (cause : Cause) : Parse α := do
  match ← token? with
  | some (.broken f) =>
    let _ ← advance
    note f.span f.cause
    throw ⟨span,cause⟩
  | _ => throw ⟨span,cause⟩

/-- The current token where one is required. -/
def token : Parse Token := do
  match ← token? with
  | some (.broken f) =>
    let _ ← advance
    throw f
  | some t => return t
  | none =>
    let r ← get
    throw ⟨Span.point r.lexer.finish,.endOfFile⟩

def flags : Parse Flags := return (← get).flags

def dialect : Parse Dialect := return (← get).dialect

def isTyped : Parse Bool := return (← get).dialect.types

def here : Parse Nat := do
  match ← lexeme? with
  | some t => return t.span.lo
  | none => return (← get).previousSpan.hi

/-- The span of the current token, at the end that of the last one. -/
def hereSpan : Parse Span := do
  match ← lexeme? with
  | some t => return t.span
  | none => return (← get).previousSpan

def previousSpan : Parse Span := return (← get).previousSpan

def spanFrom (start : Nat) : Parse Span := do
  let stop := (← get).previousSpan.hi
  return if start ≤ stop then ⟨start,stop⟩ else ⟨stop,start⟩

def describeHere : Parse String := do
  match ← token? with
  | some t => return t.describe
  | none => return "<eof>"

/-- Did a line end in front of the current token?  The end of the source counts as one. -/
def afterLineBreak : Parse Bool := do
  match ← lexeme? with
  | some t => return t.afterLineBreak
  | none => return true

def lineBreakAhead : Parse Bool := do
  match ← upcoming? with
  | some t => return t.afterLineBreak
  | none => return true

def atEnd : Parse Bool := return (← token?).isNone

def sees (s : String) : Parse Bool := return (← token?).any (·.isSpelled s)

def seesAny (ss : List String) : Parse Bool := do
  match ← token? with
  | some t => return ss.any t.isSpelled
  | none => return false

def foresees (s : String) : Parse Bool := return (← peek?).any (·.isSpelled s)

def foreseesAny (ss : List String) : Parse Bool := return (← peek?).any fun t => ss.any t.isSpelled

/-- Can a statement end here: at a semicolon, a closing brace, the end or the end of a line? -/
def seesEnd : Parse Bool := do
  match ← token? with
  | none => return true
  | some t => return t.isSpelled ";" || t.isSpelled r"}" || (← afterLineBreak)

def eat (s : String) : Parse Bool := do
  if ← sees s then
    let _ ← advance
    return true
  else return false

def eatAny (ss : List String) : Parse Bool := do
  if ← seesAny ss then
    let _ ← advance
    return true
  else return false

def eatEnd : Parse Bool := do
  if ← sees ";" then
    let _ ← advance
    return true
  else seesEnd

def expect (s : String) : Parse Unit := do
  if ← eat s then return ()
  else refuse (← hereSpan) (.expected s (← describeHere))

def expectEnd : Parse Unit := do
  if ← eatEnd then return ()
  else refuse (← hereSpan) (.expected ";" (← describeHere))

def unexpected {α : Type} (wanted : String) : Parse α := do
  refuse (← hereSpan) (.unexpected (← describeHere) wanted)

/-- Run a rule under changed flags; they are restored also if it fails. -/
def withFlags {α : Type} (change : Flags → Flags) (p : Parse α) : Parse α := fun r =>
  match p { r with flags := change r.flags } with
  | .ok a r' => .ok a { r' with flags := r.flags }
  | .error e r' => .error e { r' with flags := r.flags }

/-- Run a rule with no labels in sight; they are restored also if it fails. -/
def withoutLabels {α : Type} (p : Parse α) : Parse α := fun r =>
  let restore (r' : Reading) : Reading :=
    { r' with
      labels := r.labels, arrowStart := r.arrowStart, trailingCommas := r.trailingCommas }
  match p { r with labels := [], arrowStart := none, trailingCommas := [] } with
  | .ok a r' => .ok a (restore r')
  | .error e r' => .error e (restore r')

def allowingIn {α : Type} (allow : Bool) (p : Parse α) : Parse α :=
  withFlags (fun f => { f with allowIn := allow }) p

def inType {α : Type} (p : Parse α) : Parse α :=
  withFlags (fun f => { f with inType := true }) p

/-- Try a rule; if it fails or has no result, nothing has happened.  Faults are not noted. -/
def attempt {α : Type} (p : Parse (Option α)) : Parse (Option α) := fun r =>
  if r.dialect.types then
    match p (r.quiet true) with
    | .ok (some a) r' =>
      .ok (some a) (r'.quiet r.flags.ignoreFaults)
    | _ => .ok none r
  else .ok none r

def lookAhead {α : Type} (p : Parse α) : Parse (Option α) := fun r =>
  match p (r.quiet true) with
  | .ok a _ => .ok (some a) r
  | .error _ _ => .ok none r

def iterateN {α : Type} : Nat → (α → Parse (α × Bool)) → α → Parse α
  | 0, _, _ => do throw ⟨← hereSpan,.tooDeep⟩
  | n + 1, step, a => do
    let (a,more) ← step a
    if more then iterateN n step a else return a

/-- Repeat a step until it says that there is no more.  Every step but the last one reads a token. -/
def iterate {α : Type} (init : α) (step : α → Parse (α × Bool)) : Parse α := do
  iterateN ((← get).lexer.left + 8) step init

/-- The results of a rule, for as long as the condition holds in front of it. -/
def collect {α : Type} (more : Parse Bool) (p : Parse α) : Parse (List α) := do
  let found ← iterate [] fun found => do
    if ← more then return ((← p) :: found,true) else return (found,false)
  return found.reverse

end Parse

/-- What an operand is read again as, when it turns out to be a target. -/
inductive TargetKind where
  | binding | bindingElement | assigned | assignedElement
  deriving DecidableEq

def TargetKind.element : TargetKind → TargetKind
  | .binding | .bindingElement => .bindingElement
  | .assigned | .assignedElement => .assignedElement

/-- The rules call each other in cycles, so they are written against this record of those that are called
before they are defined.  `Grammar.rules` ties the knot. -/
structure Rules where
  sequence : Parse Node
  /-- One value without a comma at its top. -/
  assignment : Parse Node
  operand : Parse Node
  /-- Binary operators behind an operand, from above a binding strength on. -/
  operators : Node → (least : Nat) → Parse Node
  /-- A value with accesses to members behind it, but no calls. -/
  member : (afterNew : Bool) → Parse Node
  /-- A value with accesses and calls behind it. -/
  leftHand : Parse Node
  statement : (declarations : Bool) → Parse Node
  target : (denyLet : Bool) → Parse Node
  /-- A value read again as a target. -/
  retarget : TargetKind → Node → Parse Node
  markup : Parse Node
  /-- A type, which is checked for form and dropped. -/
  type : Parse Unit

end PreviewCompiler.Script
