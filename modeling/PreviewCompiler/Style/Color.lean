import PreviewCompiler.Style.ColorNames
import PreviewCompiler.Style.Lexer

namespace PreviewCompiler.Style

inductive Color where
  /-- Eight bits each. -/
  | rgba (red green blue alpha : Nat)
  | current
  deriving DecidableEq, Repr

def lowercase (s : String) : String := String.ofList (s.toList.map Char.toLower)

namespace Color

def ofBits (n : Nat) : Color := rgba (n / 0x10000) (n / 0x100 % 0x100) (n % 0x100) 255

def ofName? (name : String) : Option Color :=
  let name := lowercase name
  if name = "transparent" then some (rgba 0 0 0 0)
  else if name = "currentcolor" then some current
  else (namedColors.lookup name).map ofBits

/-- Digits behind a hash sign: one or two for each of red, green, blue and the opacity. -/
def ofHex? (digits : String) : Option Color :=
  let cs := digits.toList
  if !cs.all isHexDigit then none
  else
    match cs with
    | [r,g,b] => some (rgba (twice r) (twice g) (twice b) 255)
    | [r,g,b,a] => some (rgba (twice r) (twice g) (twice b) (twice a))
    | [r,r',g,g',b,b'] => some (rgba (hexValue [r,r']) (hexValue [g,g']) (hexValue [b,b']) 255)
    | [r,r',g,g',b,b',a,a'] =>
      some (rgba (hexValue [r,r']) (hexValue [g,g']) (hexValue [b,b']) (hexValue [a,a']))
    | _ => none
where
  twice (c : Char) : Nat := hexValue [c,c]

inductive Argument where
  | number (n : Numeral)
  | percentage (n : Numeral)
  | degrees (n : Numeral)

def arguments? (inner : List Piece) : Option (List Argument) :=
  let parts := inner.filter fun p => !p.isBlank && p.head != .comma && p.head != .delim '/'
  parts.mapM fun p =>
    match p.head with
    | .number n => some (.number n)
    | .percentage n => some (.percentage n)
    | .dimension n unit => if lowercase unit = "deg" then some (.degrees n) else none
    | _ => none

def millionths (n : Numeral) : Int :=
  let d := n.digits
  let m : Int :=
    ↑(d.significand * Nat.pow 10 (d.exponent + 6).toNat / Nat.pow 10 (-(d.exponent + 6)).toNat)
  if n.isNegative then -m else m

/-- The nearest number to a fraction, from 0 to 255; a half goes up. -/
def toByte (num den : Int) : Nat := min 255 ((2 * num + den) / (2 * den)).toNat

def million : Int := 1000000

def channel : Argument → Nat
  | .number n | .degrees n => toByte (millionths n) million
  | .percentage n => toByte (millionths n * 255) (100 * million)

def opacity : Argument → Nat
  | .number n | .degrees n => toByte (millionths n * 255) million
  | .percentage n => toByte (millionths n * 255) (100 * million)

def share : Argument → Int
  | .number n | .degrees n | .percentage n => max 0 (min million (millionths n / 100))

def angle : Argument → Int
  | .number n | .degrees n | .percentage n => millionths n

/-- Red, green or blue, `n` being 0, 8 or 4, of a color by hue, saturation and lightness. -/
def ofHue (hue saturation lightness n : Int) : Nat :=
  let k := (n * 30 * million + hue) % (360 * million)
  let m := max (-30 * million) (min (min (k - 90 * million) (270 * million - k)) (30 * million))
  let a := saturation * min lightness (million - lightness)
  toByte (255 * (lightness * million * 30 * million - a * m)) (million * million * 30 * million)

def ofFunction? (name : String) (inner : List Piece) : Option Color := do
  let arguments ← arguments? inner
  let (a,b,c,alpha) ← match arguments with
    | [a,b,c] => some (a,b,c,255)
    | [a,b,c,d] => some (a,b,c,opacity d)
    | _ => none
  match lowercase name with
  | "rgb" | "rgba" => some (rgba (channel a) (channel b) (channel c) alpha)
  | "hsl" | "hsla" =>
    let part (n : Int) : Nat := ofHue (angle a) (share b) (share c) n
    some (rgba (part 0) (part 8) (part 4) alpha)
  | _ => none

def ofPiece? : Piece → Option Color
  | .token (.ident name) .. => ofName? name
  | .token (.hash digits) .. | .token (.idHash digits) .. => ofHex? digits
  | .block (.function name) inner .. => ofFunction? name inner
  | _ => none

def hexByte (n : Nat) : List Char := [digit (n / 16),digit (n % 16)]
where
  digit (n : Nat) : Char := (Nat.toDigits 16 n).headD '0'

/-- The digits behind a hash sign, one instead of two equal ones if that goes everywhere. -/
def hexText (parts : List Nat) : String :=
  let digits := parts.map hexByte
  let short := digits.all fun d => d.head? == d.getLast?
  String.ofList ('#' :: digits.flatMap fun d => if short then d.take 1 else d)

def text : Color → String
  | current => "currentColor"
  | rgba r g b a =>
    if a = 255 then (shortColors.lookup (r * 0x10000 + g * 0x100 + b)).getD (hexText [r,g,b])
    else hexText [r,g,b,a]

end Color

end PreviewCompiler.Style
