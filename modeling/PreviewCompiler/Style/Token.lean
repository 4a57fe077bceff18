import PreviewCompiler.Decimal.Shortest
import PreviewCompiler.Text.Quoted

namespace PreviewCompiler.Style

open Decimal

/-- A place in a stylesheet: its line, counted from 0, and its column in 16-bit units, counted from 1. -/
structure Place where
  line : Nat := 0
  column : Nat := 1
  deriving DecidableEq, Repr

structure Numeral where
  isSigned : Bool := false
  isNegative : Bool := false
  isInteger : Bool := true
  digits : Digits
  deriving DecidableEq, Repr

namespace Numeral

/-- The value, which has 24 bits. -/
def value (n : Numeral) : Binary :=
  (Format.single.ofDecimal n.digits.significand n.digits.exponent).getD ⟨16777215,104⟩

def isZero (n : Numeral) : Bool := n.value.significand = 0

/-- At most six digits; a half goes up. -/
def sixDigits (d : Digits) : Digits :=
  let extra := d.text.length - 6
  if extra = 0 then d
  else
    let unit := Nat.pow 10 extra
    Digits.dropZeros ⟨(d.significand + unit / 2) / unit,d.exponent + extra⟩ 7

/-- The digits of the value without a sign, without a zero in front of the point. -/
def magnitudeText (n : Numeral) : String :=
  let d := sixDigits (n.value.shortest Format.single)
  if d.significand = 0 then "0"
  else if 21 < d.point ∨ d.point ≤ -6 then d.scientific
  else if d.point ≤ 0 then (d.positional.drop 1).toString
  else d.positional

def text (n : Numeral) : String :=
  if n.isZero then "0" else (if n.isNegative then "-" else "") ++ n.magnitudeText

def scale (exponent : Int) (n : Numeral) : Numeral :=
  { n with digits := ⟨n.digits.significand,n.digits.exponent + exponent⟩ }

/-- The value as a programmer sees it, with a digit behind the point. -/
def debugText (n : Numeral) : String :=
  let d := n.value.shortest Format.single
  (if n.isNegative then "-" else "") ++ d.positional ++ (if 0 ≤ d.exponent then ".0" else "")

def integerText (n : Numeral) : String :=
  if n.isInteger then
    "Some(" ++ (if n.isNegative then "-" else "") ++ toString n.digits.significand ++ ")"
  else "None"

def fieldsText (name : String) (value : Numeral) (n : Numeral) : String :=
  "has_sign: " ++ (if n.isSigned then "true" else "false") ++ ", " ++ name ++ ": " ++ value.debugText
    ++ ", int_value: " ++ n.integerText

end Numeral

inductive Bracket where
  | round
  | square
  | curly
  deriving DecidableEq, Repr

inductive Token where
  | ident (name : String)
  | atKeyword (name : String)
  /-- A hash sign with a name that is no identifier. -/
  | hash (name : String)
  | idHash (name : String)
  | string (value : String)
  | url (value : String)
  | delim (c : Char)
  | number (n : Numeral)
  | percentage (n : Numeral)
  | dimension (n : Numeral) (unit : String)
  | blank (text : String)
  | comment (text : String)
  | colon
  | semicolon
  | comma
  | includeMatch
  | dashMatch
  | frontMatch
  | endMatch
  | substringMatch
  | commentOpen
  | commentClose
  | function (name : String)
  | opening (b : Bracket)
  | closing (b : Bracket)
  | badString (value : String)
  | badUrl (value : String)
  deriving DecidableEq, Repr

namespace Token

def isBlank : Token → Bool
  | blank _ | comment _ => true
  | _ => false

def quoted (s : String) : String := Text.quoteShown s

def debugText : Token → String
  | ident s => "Ident(" ++ quoted s ++ ")"
  | atKeyword s => "AtKeyword(" ++ quoted s ++ ")"
  | hash s => "Hash(" ++ quoted s ++ ")"
  | idHash s => "IDHash(" ++ quoted s ++ ")"
  | string s => "String(" ++ quoted s ++ ")"
  | url s => "UnquotedUrl(" ++ quoted s ++ ")"
  | delim c => "Delim(" ++ charText c ++ ")"
  | number n => "Number " ++ braces (n.fieldsText "value" n)
  | percentage n => "Percentage " ++ braces (n.fieldsText "unit_value" (n.scale (-2)))
  | dimension n unit => "Dimension " ++ braces (n.fieldsText "value" n ++ ", unit: " ++ quoted unit)
  | blank s => "WhiteSpace(" ++ quoted s ++ ")"
  | comment s => "Comment(" ++ quoted s ++ ")"
  | colon => "Colon"
  | semicolon => "Semicolon"
  | comma => "Comma"
  | includeMatch => "IncludeMatch"
  | dashMatch => "DashMatch"
  | frontMatch => "PrefixMatch"
  | endMatch => "SuffixMatch"
  | substringMatch => "SubstringMatch"
  | commentOpen => "CDO"
  | commentClose => "CDC"
  | function s => "Function(" ++ quoted s ++ ")"
  | opening .round => "ParenthesisBlock"
  | opening .square => "SquareBracketBlock"
  | opening .curly => "CurlyBracketBlock"
  | closing .round => "CloseParenthesis"
  | closing .square => "CloseSquareBracket"
  | closing .curly => "CloseCurlyBracket"
  | badString s => "BadString(" ++ quoted s ++ ")"
  | badUrl s => "BadUrl(" ++ quoted s ++ ")"
where
  braces (s : String) : String := "\x7b " ++ s ++ " \x7d"
  charText (c : Char) : String :=
    if c = '\'' then "'\\''" else if c = '\\' then "'\\\\'" else "'" ++ c.toString ++ "'"

end Token

/-- A token, or what stands between two brackets. -/
inductive Piece where
  | token (t : Token) (start stop : Place)
  /-- `inner` goes from `innerStart` to `innerStop`, where it is closed or the stylesheet ends. -/
  | block (opening : Token) (inner : List Piece) (start innerStart innerStop stop : Place)

namespace Piece

/-- The token, or that which opens the block. -/
def head : Piece → Token
  | token t .. => t
  | block t .. => t

def start : Piece → Place
  | token _ p _ => p
  | block _ _ p .. => p

def stop : Piece → Place
  | token _ _ p => p
  | block _ _ _ _ _ p => p

def isBlank (p : Piece) : Bool := p.head.isBlank

end Piece

end PreviewCompiler.Style
