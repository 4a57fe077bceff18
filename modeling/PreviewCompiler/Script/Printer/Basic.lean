import PreviewCompiler.Script.Node
import PreviewCompiler.Script.Comment
import PreviewCompiler.Script.Numeral

namespace PreviewCompiler.Script

/-- Text that grows at its end.  The wide style puts items on lines of their own and blanks around operators;
the brief one leaves out every blank that is not needed. -/
structure Page where
  out : String := ""
  atLineStart : Bool := true
  depth : Nat := 0
  isBrief : Bool
  comments : Comments

abbrev Write := StateM Page

namespace Write

def isBrief : Write Bool := return (← get).isBrief

/-- Write text; the first text of a line is indented. -/
def text (s : String) : Write Unit :=
  if s.isEmpty then pure ()
  else modify fun p =>
    let out := if p.atLineStart then p.out.pushn ' ' (4 * p.depth) else p.out
    { p with out := out ++ s, atLineStart := false }

def blank : Write Unit := text " "

def gap : Write Unit := do
  unless ← isBrief do blank

/-- A blank that is needed if a word follows, and belongs to the wide style else. -/
def gapBefore (wordFollows : Bool) : Write Unit := if wordFollows then blank else gap

def lineEnd : Write Unit :=
  modify fun p => if p.atLineStart then p else { p with out := p.out.push '\n', atLineStart := true }

/-- A line end of the wide style. -/
def line : Write Unit := do
  unless ← isBrief do lineEnd

def indented (w : Write Unit) : Write Unit := do
  modify fun p => { p with depth := p.depth + 1 }
  w
  modify fun p => { p with depth := p.depth - 1 }

def comment (c : Comment) : Write Unit := do
  if c.isBlock then
    text ("/*" ++ c.text ++ "*/")
    gap
  else
    text ("//" ++ c.text)
    lineEnd

/-- Write the comments in front of what starts at an offset.  No comment is attached to syntax that the
author did not write. -/
def leading (offset : Nat) : Write Unit := do
  let here := (← get).comments.leadingAt offset
  unless offset = 0 || here.isEmpty do
    modify fun p => { p with comments := p.comments.dropLeading offset }
    here.forM comment

def trailing (offset : Nat) : Write Unit := do
  let here := (← get).comments.trailingAt offset
  unless offset = 0 || here.isEmpty do
    modify fun p => { p with comments := p.comments.dropTrailing offset }
    here.forM fun c => do
      blank
      comment c

/-- The length of the text that stands for one half of a surrogate pair, at the start of `cs`. -/
def halfPairLength? : List Char → Option Nat
  | '\\' :: 'u' :: d :: a :: b :: c :: _ =>
    if (d == 'd' || d == 'D') && [a,b,c].all isHex && [a,b,c] != ['8','0','0'] then some 6
    else none
  | _ => none
where
  isHex (c : Char) : Bool := c.isDigit || ('a' ≤ c && c ≤ 'f') || ('A' ≤ c && c ≤ 'F')

/-- A character between quotes; `next` is what follows. -/
def escape (quote c : Char) (next : Option Char) : String :=
  if c = '\x00' then if next.any Char.isDigit then "\\x00" else "\\0"
  else if c = '\x08' then "\\b"
  else if c = '\x0c' then "\\f"
  else if c = '\n' then "\\n"
  else if c = '\r' then "\\r"
  else if c = '\x0b' then "\\v"
  else if c = '\t' then "\t"
  else if c = '\\' then "\\\\"
  else if c = quote then "\\" ++ c.toString
  else if c < '\x10' then "\\x0" ++ String.ofList (Nat.toDigits 16 c.toNat)
  else if c < ' ' then "\\x" ++ String.ofList (Nat.toDigits 16 c.toNat)
  else if c = '\u2028' then "\\u2028"
  else if c = '\u2029' then "\\u2029"
  else if c = '\ufeff' then "\\uFEFF"
  else c.toString

def escapeAll (quote : Char) : (kept : Nat) → List Char → String
  | _, [] => ""
  | kept + 1, c :: cs => c.toString ++ escapeAll quote kept cs
  | 0, c :: cs =>
    match halfPairLength? (c :: cs) with
    | some n => c.toString ++ escapeAll quote (n - 1) cs
    | none => escape quote c cs.head? ++ escapeAll quote 0 cs

/-- A string literal.  The quotes are double ones unless the text has more of them than of single ones. -/
def quoted (s : String) : String :=
  let cs := s.toList
  let quote := if cs.count '\'' < cs.count '"' then '\'' else '"'
  quote.toString ++ escapeAll quote 0 cs ++ quote.toString

end Write

end PreviewCompiler.Script
