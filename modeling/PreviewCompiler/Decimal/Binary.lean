namespace PreviewCompiler.Decimal

/-- A number that is not negative, as a significand times a power of two. -/
structure Binary where
  significand : Nat
  exponent : Int
  deriving DecidableEq, Repr

structure Format where
  precision : Nat
  minExponent : Int
  maxExponent : Int

namespace Format

def double : Format := ⟨53,-1074,971⟩

def single : Format := ⟨24,-149,104⟩

end Format

/-- The quotient rounded to the nearest number; a half goes to the even one. -/
def roundDiv (num den : Nat) : Nat :=
  let quotient := num / den
  let twice := 2 * (num % den)
  if twice < den ∨ (twice = den ∧ quotient % 2 = 0) then quotient else quotient + 1

namespace Binary

def num (b : Binary) : Nat := b.significand * Nat.pow 2 b.exponent.toNat

def den (b : Binary) : Nat := Nat.pow 2 (-b.exponent).toNat

end Binary

namespace Format

/-- The largest power of two that is not above `num / den`. -/
def magnitude (num den : Nat) : Int :=
  let k : Int := (Nat.log2 num : Int) - (Nat.log2 den : Int)
  if num * Nat.pow 2 (-k).toNat < den * Nat.pow 2 k.toNat then k - 1 else k

/-- The number of the format that is nearest to `num / den`; `none` if that is too large. -/
def round (f : Format) (num den : Nat) : Option Binary :=
  if num = 0 then some ⟨0,f.minExponent⟩
  else
    let q := max (magnitude num den - f.precision + 1) f.minExponent
    let m := roundDiv (num * Nat.pow 2 (-q).toNat) (den * Nat.pow 2 q.toNat)
    let b : Binary := if m = Nat.pow 2 f.precision then ⟨m / 2,q + 1⟩ else ⟨m,q⟩
    if b.exponent > f.maxExponent then none else some b

/-- The number of the format that is nearest to `significand · 10^exponent`. -/
def ofDecimal (f : Format) (significand : Nat) (exponent : Int) : Option Binary :=
  f.round (significand * Nat.pow 10 exponent.toNat) (Nat.pow 10 (-exponent).toNat)

end Format

end PreviewCompiler.Decimal
