namespace PreviewCompiler

def textBytes (s : String) : List UInt8 := s.toUTF8.data.toList

namespace Text.Utf8

structure Pending where
  value : Nat
  needed : Nat
  /-- The least and the greatest byte that may follow. -/
  low : UInt8
  high : UInt8

inductive Start where
  | char (c : Char)
  | more (p : Pending)
  | fault

/-- The first byte of a character tells its length; the second one is bounded such that no character has
two forms and there are no halves of surrogate pairs. -/
def start (b : UInt8) : Start :=
  let n := b.toNat
  if n < 0x80 then .char (Char.ofNat n)
  else if 0xc2 ≤ n ∧ n ≤ 0xdf then .more ⟨n - 0xc0,1,0x80,0xbf⟩
  else if 0xe0 ≤ n ∧ n ≤ 0xef then
    .more ⟨n - 0xe0,2,if n = 0xe0 then 0xa0 else 0x80,if n = 0xed then 0x9f else 0xbf⟩
  else if 0xf0 ≤ n ∧ n ≤ 0xf4 then
    .more ⟨n - 0xf0,3,if n = 0xf0 then 0x90 else 0x80,if n = 0xf4 then 0x8f else 0xbf⟩
  else .fault

/-- The characters of some bytes, a character having begun or not; `none` stands for a fault, which is every
longest piece that could have begun a character but does not go on as one. -/
def decodeFrom : Option Pending → List UInt8 → List (Option Char)
  | none, [] => []
  | some _, [] => [none]
  | none, b :: bs =>
    match start b with
    | .char c => some c :: decodeFrom none bs
    | .more p => decodeFrom (some p) bs
    | .fault => none :: decodeFrom none bs
  | some p, b :: bs =>
    if p.low ≤ b ∧ b ≤ p.high then
      let value := p.value * 64 + (b.toNat - 0x80)
      if p.needed ≤ 1 then some (Char.ofNat value) :: decodeFrom none bs
      else decodeFrom (some ⟨value,p.needed - 1,0x80,0xbf⟩) bs
    else
      none :: match start b with
        | .char c => some c :: decodeFrom none bs
        | .more p => decodeFrom (some p) bs
        | .fault => none :: decodeFrom none bs

def decode (bytes : List UInt8) : List (Option Char) := decodeFrom none bytes

/-- The text of some bytes, a replacement character standing for every fault. -/
def decodeLossy (bytes : List UInt8) : String :=
  String.ofList ((decode bytes).map (·.getD '\ufffd'))

def decode? (bytes : List UInt8) : Option String :=
  ((decode bytes).mapM id).map String.ofList

end Text.Utf8

end PreviewCompiler
