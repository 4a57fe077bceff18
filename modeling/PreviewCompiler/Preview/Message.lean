import PreviewCompiler.Json.Decoder
import PreviewCompiler.Json.Printer

namespace PreviewCompiler

structure SourceLocation where
  file : String
  line : Option Nat := none
  column : Option Nat := none
  deriving DecidableEq, Repr

namespace SourceLocation

/-- The place in one line; a column alone is not told. -/
def text (l : SourceLocation) : String :=
  l.file ++ match l.line, l.column with
    | some line, some column => ":" ++ toString line ++ ":" ++ toString column
    | some line, none => ":" ++ toString line
    | none, _ => ""

def toJson (l : SourceLocation) : Json :=
  .object [("file",.string l.file),("line",optional l.line),("column",optional l.column)]
where
  optional : Option Nat → Json
    | some n => .ofNat n
    | none => .null

def ofJson : Json → Except Json.Cause SourceLocation :=
  Json.decodeRecord "struct SourceLocation"
    [⟨"file",fun v l => return { l with file := ← Json.asString v },false⟩,
     ⟨"line",fun v l => return { l with line := ← number v },true⟩,
     ⟨"column",fun v l => return { l with column := ← number v },true⟩]
    ⟨"",none,none⟩
where
  number : Json → Except Json.Cause (Option Nat) := Json.asOption (Json.asNaturalBelow UInt32.size "u32")

end SourceLocation

structure RuntimeError where
  message : String
  stack : Option String := none
  location : Option SourceLocation := none
  version : Option Nat := none
  deriving DecidableEq, Repr

namespace RuntimeError

def text (e : RuntimeError) : String :=
  e.message ++ match e.location with
    | some l => " (" ++ l.text ++ ")"
    | none => ""

def fields (e : RuntimeError) : List (String × Json) :=
  [("message",.string e.message)]
    ++ (e.stack.map fun s => ("stack",.string s)).toList
    ++ (e.location.map fun l => ("location",l.toJson)).toList
    ++ (e.version.map fun v => ("version",.ofNat v)).toList

def toJson (e : RuntimeError) : Json := .object e.fields

def ofJson : Json → Except Json.Cause RuntimeError :=
  Json.decodeRecord "struct RuntimeError"
    [⟨"message",fun v e => return { e with message := ← Json.asString v },false⟩,
     ⟨"stack",fun v e => return { e with stack := ← Json.asOption Json.asString v },true⟩,
     ⟨"location",fun v e => return { e with location := ← Json.asOption SourceLocation.ofJson v },true⟩,
     ⟨"version",fun v e => return { e with version := ← version v },true⟩]
    ⟨"",none,none,none⟩
where
  version : Json → Except Json.Cause (Option Nat) := Json.asOption (Json.asNaturalBelow UInt64.size "u64")

end RuntimeError

inductive PageMessage where
  | runtimeError (error : RuntimeError)
  deriving DecidableEq, Repr

namespace PageMessage

def toJson : PageMessage → Json
  | runtimeError e => .object (("type",.string "runtime-error") :: e.fields)

def text (m : PageMessage) : String := m.toJson.compact

def read : Json.Read PageMessage := do
  let (make,rest) ← Json.Read.tagged "SandboxMessage" "type" [("runtime-error",PageMessage.runtimeError)]
  match RuntimeError.ofJson rest with
  | .ok e => return make e
  | .error cause => Json.Read.failAround cause

def parse (s : String) : Except Json.Fault PageMessage := Json.Read.runAll read s

end PageMessage

inductive HostMessage where
  | document (version : Nat) (html : String)
  deriving DecidableEq, Repr

def HostMessage.toJson : HostMessage → Json
  | document version html =>
    .object [("type",.string "document"),("version",.ofNat version),("html",.string html)]

end PreviewCompiler
