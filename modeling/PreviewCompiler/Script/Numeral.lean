import PreviewCompiler.Decimal.Shortest

namespace PreviewCompiler.Script.Numeral

open Decimal

def digitValue (c : Char) : Nat :=
  if c.isDigit then c.toNat - '0'.toNat
  else if 'a' ≤ c ∧ c ≤ 'z' then c.toNat - 'a'.toNat + 10
  else if 'A' ≤ c ∧ c ≤ 'Z' then c.toNat - 'A'.toNat + 10
  else 0

def ofDigits (base : Nat) (digits : List Char) : Nat :=
  digits.foldl (fun n c => n * base + digitValue c) 0

def exponentValue : List Char → Int
  | '-' :: digits => -(ofDigits 10 digits : Int)
  | '+' :: digits => ofDigits 10 digits
  | digits => ofDigits 10 digits

def ofDecimal (cs : List Char) : Digits :=
  let mantissa := cs.takeWhile fun c => c != 'e' && c != 'E'
  let exponent := exponentValue (cs.drop (mantissa.length + 1))
  let whole := mantissa.takeWhile (· != '.')
  let fraction := mantissa.drop (whole.length + 1)
  ⟨ofDigits 10 (whole ++ fraction),exponent - fraction.length⟩

/-- What a numeral says, before it is rounded. -/
def exact (raw : String) : Digits :=
  match raw.toList.filter (· != '_') with
  | '0' :: c :: digits =>
    if c == 'x' || c == 'X' then ⟨ofDigits 16 digits,0⟩
    else if c == 'o' || c == 'O' then ⟨ofDigits 8 digits,0⟩
    else if c == 'b' || c == 'B' then ⟨ofDigits 2 digits,0⟩
    else if (c :: digits).all fun d => '0' ≤ d && d ≤ '7' then ⟨ofDigits 8 (c :: digits),0⟩
    else ofDecimal ('0' :: c :: digits)
  | cs => ofDecimal cs

/-- The double that a numeral means; `none` if it is too large. -/
def value (raw : String) : Option Binary :=
  let d := exact raw
  Format.double.ofDecimal d.significand d.exponent

def plain (raw : String) : String :=
  match value raw with
  | some b => (b.shortest Format.double).positional
  | none => "inf"

/-- The shorter of two texts, the first if they are of one length. -/
def shorter (a b : String) : String := if b.length < a.length then b else a

/-- The value with few characters: no zero in front of the point, a power of ten for zeros, and digits in
base sixteen where they are fewer. -/
def brief (raw : String) : String :=
  match value raw with
  | none => raw
  | some b =>
    let d := b.shortest Format.double
    let text := if d.point ≤ 0 ∧ d.significand ≠ 0 then (d.positional.drop 1).toString
      else d.positional
    let hex := if b.den = 1 then "0x" ++ String.ofList (Nat.toDigits 16 b.num) else text
    let power :=
      if 3 ≤ d.exponent ∨ d.point ≤ -3 then d.text ++ "e" ++ toString d.exponent else text
    shorter (shorter text hex) power

end PreviewCompiler.Script.Numeral
