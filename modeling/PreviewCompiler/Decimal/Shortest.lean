import PreviewCompiler.Decimal.Binary

namespace PreviewCompiler.Decimal

/-- A number that is not negative, as decimal digits times a power of ten. -/
structure Digits where
  significand : Nat
  exponent : Int
  deriving DecidableEq, Repr

namespace Digits

/-- The digits without zeros at their end, of which at most `fuel` are dropped. -/
def dropZeros (d : Digits) : (fuel : Nat) → Digits
  | 0 => d
  | fuel + 1 =>
    if d.significand ≠ 0 ∧ d.significand % 10 = 0 then
      dropZeros ⟨d.significand / 10,d.exponent + 1⟩ fuel
    else d

def text (d : Digits) : String := toString d.significand

/-- How many digits stand in front of the point; none or less if zeros follow behind it. -/
def point (d : Digits) : Int := d.text.length + d.exponent

end Digits

def zeros (n : Nat) : String := "".pushn '0' n

namespace Digits

def positional (d : Digits) : String :=
  if d.significand = 0 then "0"
  else if 0 ≤ d.exponent then d.text ++ zeros d.exponent.toNat
  else if 0 < d.point then
    (d.text.take d.point.toNat).toString ++ "." ++ (d.text.drop d.point.toNat).toString
  else "0." ++ zeros (-d.point).toNat ++ d.text

/-- One digit in front of the point, and the power of ten that the whole is to be multiplied with. -/
def scientific (d : Digits) : String :=
  let fraction := (d.text.drop 1).toString
  (d.text.take 1).toString ++ (if fraction.isEmpty then "" else "." ++ fraction)
    ++ "e" ++ toString (d.point - 1)

end Digits

/-- The exponent of the first decimal digit of `num / den`, which is not zero. -/
def leadingExponent (num den : Nat) : Int :=
  if den ≤ num then (toString (num / den)).length - 1
  else -((toString ((den - 1) / num)).length : Int)

namespace Binary

/-- Four times the distance from a number to the lower bound of what reads back as it, in units of its
last bit: the number below is nearer if the exponent changes there. -/
def lowerGap (f : Format) (b : Binary) : Nat :=
  if b.significand = Nat.pow 2 (f.precision - 1) ∧ b.exponent > f.minExponent then 1 else 2

/-- Does the decimal `c · 10^g` read back as `b`?  A bound itself does if the significand of `b` is
even. -/
def readsBack (f : Format) (b : Binary) (c : Nat) (g : Int) : Bool :=
  let value := c * Nat.pow 10 g.toNat * Nat.pow 2 (2 - b.exponent).toNat
  let unit := Nat.pow 10 (-g).toNat * Nat.pow 2 (b.exponent - 2).toNat
  let lower := (4 * b.significand - b.lowerGap f) * unit
  let upper := (4 * b.significand + 2) * unit
  if b.significand % 2 = 0 then lower ≤ value && value ≤ upper
  else lower < value && value < upper

/-- The point of the grid of multiples of `10^g` that reads back as `b` and is nearest to it. -/
def onGrid? (f : Format) (b : Binary) (g : Int) : Option Digits :=
  let num := b.num * Nat.pow 10 (-g).toNat
  let den := b.den * Nat.pow 10 g.toNat
  let below := num / den
  let nearest := roundDiv num den
  if b.readsBack f nearest g then some ⟨nearest,g⟩
  else if b.readsBack f below g then some ⟨below,g⟩
  else if b.readsBack f (below + 1) g then some ⟨below + 1,g⟩
  else none

/-- The first grid with a point, the number of digits going up. -/
def searchGrids (f : Format) (b : Binary) (leading : Int) : (fuel n : Nat) → Digits
  | 0, _ => ⟨b.num / b.den,0⟩
  | fuel + 1, n =>
    match b.onGrid? f (leading - n) with
    | some d => d.dropZeros 2
    | none => searchGrids f b leading fuel (n + 1)

/-- The shortest decimal that reads back as `b`, and of several the nearest one.  Those with one number of
digits form a grid; the first grid with a point between the two bounds of what reads back gives the digits.
-/
def shortest (f : Format) (b : Binary) : Digits :=
  if b.significand = 0 then ⟨0,0⟩
  else b.searchGrids f (leadingExponent b.num b.den) 18 0

end Binary

end PreviewCompiler.Decimal
