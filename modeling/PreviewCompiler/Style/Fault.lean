import PreviewCompiler.Style.Token

namespace PreviewCompiler.Style

inductive Cause where
  | endOfInput
  | unexpectedToken (t : Token)
  | emptySelector
  | danglingCombinator
  | className (t : Token)
  | pseudoName (t : Token)
  | afterPseudoElement (t : Token)
  | attributeName (t : Token)
  | attributeOperator (t : Token)
  | attributeValue (t : Token)
  | lateImport
  deriving DecidableEq, Repr

namespace Cause

def message : Cause → String
  | endOfInput => "Unexpected end of input"
  | unexpectedToken t => "Unexpected token " ++ t.debugText
  | emptySelector => "Invalid empty selector"
  | danglingCombinator => "Invalid dangling combinator in selector"
  | className t => "Expected identifier in class selector, got " ++ t.debugText
  | pseudoName t => "Expected identifier in pseudo selector, got " ++ t.debugText
  | afterPseudoElement t =>
    "Pseudo-elements like '::before' or '::after' can't be followed by selectors like '" ++ t.debugText ++ "'"
  | attributeName t => "No qualified name in attribute selector: " ++ t.debugText ++ "."
  | attributeOperator t => "Unexpected token in attribute selector: " ++ t.debugText
  | attributeValue t => "Invalid value in attribute selector: " ++ t.debugText
  | lateImport => "@import rules must precede all rules aside from @charset and @layer statements"

end Cause

structure Fault where
  cause : Cause
  place : Place
  deriving DecidableEq, Repr

def Fault.message (file : String) (f : Fault) : String :=
  f.cause.message ++ " at " ++ file ++ ":" ++ toString f.place.line ++ ":" ++ toString f.place.column

end PreviewCompiler.Style
