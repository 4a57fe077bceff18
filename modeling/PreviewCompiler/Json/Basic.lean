import PreviewCompiler.Decimal.Shortest
import PreviewCompiler.Data.OrderedMap

namespace PreviewCompiler

open Decimal Data

namespace Json

/-- A number: whole ones are kept exactly as long as 64 bits hold them. -/
inductive Number where
  | natural (n : Nat)
  | negative (n : Nat)
  | float (isNegative : Bool) (magnitude : Binary)
  deriving DecidableEq, Repr

namespace Number

/-- A double: all digits where there are at most 16 places in front of the point and at most four zeros
behind it, else one digit in front of the point and a power of ten. -/
def floatText (b : Binary) : String :=
  let d := b.shortest Format.double
  if d.significand = 0 then "0.0"
  else if 0 ≤ d.exponent ∧ d.point ≤ 16 then d.positional ++ ".0"
  else if -5 < d.point ∧ d.point ≤ 16 then d.positional
  else d.scientific

def text : Number → String
  | natural n => toString n
  | negative n => "-" ++ toString n
  | float isNegative b => (if isNegative then "-" else "") ++ floatText b

end Number

end Json

/-- A value as it was written: the fields of an object are in the order of the text, and a name can stand
there twice. -/
inductive Json where
  | null
  | bool (value : Bool)
  | number (value : Json.Number)
  | string (value : String)
  | array (elements : List Json)
  | object (fields : List (String × Json))
  deriving Repr

namespace Json

mutual

/-- The value with the fields of objects in ascending order, of two with one name the later one. -/
def sorted : Json → Json
  | array es => array (sortedAll es)
  | object fs => object (OrderedMap.ofList (sortedFields fs))
  | v => v

def sortedAll : List Json → List Json
  | [] => []
  | v :: vs => sorted v :: sortedAll vs

def sortedFields : List (String × Json) → List (String × Json)
  | [] => []
  | (k,v) :: fs => (k,sorted v) :: sortedFields fs

end

def ofNat (n : Nat) : Json := number (.natural n)

end Json

end PreviewCompiler
