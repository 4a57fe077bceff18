namespace PreviewCompiler

inductive CompileError where
  | resolution (specifier importer : String)
  | unsupportedModule (specifier importer path : String)
  | syntaxError (path message : String) (line column : Option Nat)
  | entryMissing (candidates : List String)
  | style (path message : String)
  deriving DecidableEq, Repr

namespace CompileError

def code : CompileError → String
  | resolution .. => "RESOLUTION_ERROR"
  | unsupportedModule .. => "UNSUPPORTED_MODULE"
  | syntaxError .. => "SYNTAX_ERROR"
  | entryMissing .. => "ENTRY_MISSING"
  | style .. => "STYLE_ERROR"

def path? : CompileError → Option String
  | resolution _ importer | unsupportedModule _ importer _ => some importer
  | syntaxError path .. | style path _ => some path
  | entryMissing _ => none

def placeText : Option Nat → Option Nat → String
  | some line, some column => ":" ++ toString line ++ ":" ++ toString column
  | some line, none => ":" ++ toString line
  | none, _ => ""

def message : CompileError → String
  | resolution specifier importer =>
    "Cannot resolve '" ++ specifier ++ "' imported from " ++ importer
  | unsupportedModule specifier importer path =>
    "Cannot import '" ++ specifier ++ "' from " ++ importer ++ ": " ++ path
      ++ " is not a JavaScript module"
  | syntaxError path text line column =>
    "Syntax error in " ++ path ++ placeText line column ++ ": " ++ text
  | entryMissing candidates =>
    "No entry module found (looked for " ++ ", ".intercalate candidates ++ ")"
  | style path text => "Invalid stylesheet " ++ path ++ ": " ++ text

end CompileError

end PreviewCompiler
