import PreviewCompiler.Command.Form
import PreviewCompiler.Text.Split

namespace PreviewCompiler.Command

inductive ArgumentFault where
  | unexpected (word : String)
  | valueMissing (option : String)
  | valueUnexpected (option : String)
  | repeated (option : String)
  | valueInvalid (option value : String)
  deriving DecidableEq, Repr

namespace ArgumentFault

def message : ArgumentFault → String
  | unexpected word => "unexpected argument '" ++ word ++ "'"
  | valueMissing option => "a value is required for '--" ++ option ++ "'"
  | valueUnexpected option => "'--" ++ option ++ "' takes no value"
  | repeated option => "'--" ++ option ++ "' cannot be used multiple times"
  | valueInvalid option value => "invalid value '" ++ value ++ "' for '" ++ option ++ "'"

end ArgumentFault

inductive Stop where
  | help (topic : Topic)
  | version
  | fault (fault : ArgumentFault)
  deriving DecidableEq, Repr

structure Reading where
  /-- The options that were given, with their values. -/
  given : List (String × String) := []
  operands : List String := []
  deriving DecidableEq, Repr

/-- A port: a number below 2^16, maybe with a sign. -/
def port? (text : String) : Option Nat :=
  match text.toList with
  | '+' :: digits => below digits 65535
  | '-' :: digits => below digits 0
  | digits => below digits 65535
where
  below (digits : List Char) (limit : Nat) : Option Nat :=
    let n := digits.foldl (fun n c => 10 * n + (c.toNat - '0'.toNat)) 0
    if !digits.isEmpty && digits.all Char.isDigit && n ≤ limit then some n else none

namespace Reading

def has (o : CommandOption) (r : Reading) : Bool := (r.given.lookup o.name).isSome

def value? (o : CommandOption) (r : Reading) : Option String := r.given.lookup o.name

/-- Take an option with its value, which is empty for a flag. -/
def record (t : Topic) (o : CommandOption) (value : String) (r : Reading) : Except Stop Reading :=
  let kept : Reading := { r with given := r.given ++ [(o.name,value)] }
  let once (isValid : Bool) : Except Stop Reading :=
    if r.has o then .error (.fault (.repeated o.name))
    else if isValid then .ok kept
    else .error (.fault (.valueInvalid o.name value))
  match o.use with
  | .help => .error (.help t)
  | .version => .error .version
  | .counter => .ok kept
  | .flag | .text => once true
  | .path => once (value ≠ "")
  | .port => once (port? value).isSome

/-- Take a word without an option; a command takes at most one, which is a directory. -/
def addOperand (t : Topic) (word : String) (r : Reading) : Except Stop Reading :=
  if t.operand?.isNone || !r.operands.isEmpty then .error (.fault (.unexpected word))
  else if word = "" then .error (.fault (.valueInvalid Topic.directory.label word))
  else .ok { r with operands := [word] }

def addOperands (t : Topic) : List String → Reading → Except Stop Reading
  | [], r => .ok r
  | word :: words, r => do addOperands t words (← r.addOperand t word)

/-- Take a word with a long option, of which `word` is what follows the dashes.  An option the value of which
has to follow is handed on. -/
def takeLong (t : Topic) (word : String) (r : Reading) : Except Stop (Reading × Option CommandOption) :=
  let (name,value) := match Text.cutAt? ['='] word.toList with
    | some (name,value) => (String.ofList name,some (String.ofList value))
    | none => (word,none)
  match t.options.find? (·.name == name), value with
  | none, _ => .error (.fault (.unexpected ("--" ++ word)))
  | some o, none => if o.takesValue then .ok (r,some o) else (·,none) <$> r.record t o ""
  | some o, some v =>
    if o.takesValue then (·,none) <$> r.record t o v else .error (.fault (.valueUnexpected o.name))

/-- Take letters of options behind one dash.  All that follows an option with a value is the value. -/
def takeLetters (t : Topic) : List Char → Reading → Except Stop (Reading × Option CommandOption)
  | [], r => .ok (r,none)
  | c :: cs, r =>
    match t.options.find? (·.letter == some c) with
    | none => .error (.fault (.unexpected ("-" ++ c.toString)))
    | some o =>
      if o.takesValue then
        match cs with
        | [] => .ok (r,some o)
        | '=' :: value | value => (·,none) <$> r.record t o (String.ofList value)
      else do takeLetters t cs (← r.record t o "")

def isOptionWord (word : String) : Bool := Text.hasFront "-" word && word != "-"

/-- Read the words for a command, up to the name of a command of its own, with which the words behind it are
handed on.  An option may be waiting for its value. -/
def take (t : Topic) (waiting : Option CommandOption) :
    List String → Reading → Except Stop (Reading × Option (Topic × List String))
  | [], r =>
    match waiting with
    | some o => .error (.fault (.valueMissing o.name))
    | none => .ok (r,none)
  | word :: words, r =>
    match waiting with
    | some o =>
      if isOptionWord word then .error (.fault (.valueMissing o.name))
      else do take t none words (← r.record t o word)
    | none =>
      match if t = .program then Topic.ofName? word else none with
      | some command => .ok (r,some (command,words))
      | none =>
        if word = "--" then (·,none) <$> r.addOperands t words
        else if !isOptionWord word then do take t none words (← r.addOperand t word)
        else do
          let (r,waiting) ← match word.toList with
            | '-' :: '-' :: name => r.takeLong t (String.ofList name)
            | letters => r.takeLetters t (letters.drop 1)
          take t waiting words r

end Reading

inductive Request where
  | version
  | check (directory out : Option String) (showsDocument showsImportMap : Bool)
  | serve (directory host : Option String) (port : Option Nat)
  deriving DecidableEq, Repr

structure Invocation where
  asksJson : Bool
  workingDirectory : Option String
  request : Request
  deriving DecidableEq, Repr

def helpTopic : (names : List String) → Except Stop Topic
  | [] => .ok .program
  | [name] =>
    match Topic.ofName? name with
    | some t => .ok t
    | none => .error (.fault (.unexpected name))
  | name :: next :: _ =>
    .error (.fault (.unexpected (if (Topic.ofName? name).isSome then next else name)))

namespace Invocation

/-- What has been read before and behind the name of a command. -/
def ofReadings (request : Request) (before behind : Reading) : Invocation where
  asksJson := before.has .json || behind.has .json
  workingDirectory := (behind.value? .workingDirectory).or (before.value? .workingDirectory)
  request

def ofArguments (arguments : List String) : Except Stop Invocation := do
  let (before,command) ← Reading.take .program none arguments {}
  match command with
  | none => return ofReadings .version before {}
  | some (.help,names) => throw (.help (← helpTopic names))
  | some (t,words) =>
    let (behind,_) ← Reading.take t none words {}
    let directory := behind.operands.head?
    let request : Request := match t with
      | .check =>
        .check directory (behind.value? .out) (behind.has .printDocument) (behind.has .printImportMap)
      | .serve => .serve directory (behind.value? .host) ((behind.value? .port).bind port?)
      | _ => .version
    return ofReadings request before behind

end Invocation

end PreviewCompiler.Command
