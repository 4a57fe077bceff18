import PreviewCompiler.Json.Basic
import PreviewCompiler.Text.Quoted

namespace PreviewCompiler.Json

/-- What was found where something else was asked for. -/
inductive Found where
  | null
  | bool (value : Bool)
  | number (value : Number)
  | string (value : String)
  | sequence
  | map
  deriving DecidableEq, Repr

namespace Found

def text : Found → String
  | null => "null"
  | bool b => "boolean `" ++ (if b then "true" else "false") ++ "`"
  | number (.float isNegative b) => "floating point `" ++ (Number.float isNegative b).text ++ "`"
  | number n => "integer `" ++ n.text ++ "`"
  | string s => "string " ++ Text.quoteShown s
  | sequence => "sequence"
  | map => "map"

end Found

inductive Cause where
  | endInValue | endInString | endInList | endInObject
  | colonExpected | listGoesOn | objectGoesOn | wordExpected | valueExpected
  | invalidEscape | invalidNumber | numberTooLarge | loneSurrogate | halfPair | controlCharacter
  | keyExpected | trailingComma | trailingCharacters | tooDeep
  | invalidType (found : Found) (expected : String)
  | invalidValue (found : Found) (expected : String)
  | invalidLength (length : Nat) (expected : String)
  | unknownVariant (name : String) (known : List String)
  | missingField (name : String)
  | duplicateField (name : String)
  deriving DecidableEq, Repr

namespace Cause

def choices : List String → String
  | [] => "there are no variants"
  | [a] => "expected `" ++ a ++ "`"
  | [a,b] => "expected `" ++ a ++ "` or `" ++ b ++ "`"
  | names => "expected one of " ++ ", ".intercalate (names.map fun n => "`" ++ n ++ "`")

def message : Cause → String
  | endInValue => "EOF while parsing a value"
  | endInString => "EOF while parsing a string"
  | endInList => "EOF while parsing a list"
  | endInObject => "EOF while parsing an object"
  | colonExpected => "expected `:`"
  | listGoesOn => "expected `,` or `]`"
  | objectGoesOn => "expected `,` or `\x7d`"
  | wordExpected => "expected ident"
  | valueExpected => "expected value"
  | invalidEscape => "invalid escape"
  | invalidNumber => "invalid number"
  | numberTooLarge => "number out of range"
  | loneSurrogate => "lone leading surrogate in hex escape"
  | halfPair => "unexpected end of hex escape"
  | controlCharacter => "control character (\\u0000-\\u001F) found while parsing a string"
  | keyExpected => "key must be a string"
  | trailingComma => "trailing comma"
  | trailingCharacters => "trailing characters"
  | tooDeep => "recursion limit exceeded"
  | invalidType found expected => "invalid type: " ++ found.text ++ ", expected " ++ expected
  | invalidValue found expected => "invalid value: " ++ found.text ++ ", expected " ++ expected
  | invalidLength n expected => "invalid length " ++ toString n ++ ", expected " ++ expected
  | unknownVariant name known => "unknown variant `" ++ name ++ "`, " ++ choices known
  | missingField name => "missing field `" ++ name ++ "`"
  | duplicateField name => "duplicate field `" ++ name ++ "`"

end Cause

/-- A line and the number of bytes in front of a place on it. -/
structure Place where
  line : Nat
  column : Nat
  deriving DecidableEq, Repr

/-- A fault; one that was found after reading has no place. -/
structure Fault where
  cause : Cause
  place : Option Place
  deriving DecidableEq, Repr

def Fault.message (f : Fault) : String :=
  match f.place with
  | some p =>
    f.cause.message ++ " at line " ++ toString p.line ++ " column " ++ toString p.column
  | none => f.cause.message

end PreviewCompiler.Json
