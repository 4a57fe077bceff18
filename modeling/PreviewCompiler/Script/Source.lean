namespace PreviewCompiler.Script

/-- A stretch of the source from `lo` to in front of `hi`.  Offsets count characters from 1, so that 0 is free
for what the compiler adds. -/
structure Span where
  lo : Nat
  hi : Nat
  deriving DecidableEq, Repr, Inhabited

namespace Span

/-- The span of syntax that was not written by the author. -/
def synthetic : Span := ⟨0,0⟩

def point (offset : Nat) : Span := ⟨offset,offset⟩

end Span

/-- A line and a column, both counted from 1 and in characters. -/
structure Place where
  line : Nat
  column : Nat
  deriving DecidableEq, Repr

/-- The place of the character at `offset`, `rest` being the source from offset `here` on. -/
def Place.scan (offset : Nat) : (rest : List Char) → (here : Nat) → Place → Place
  | [], _, p => p
  | c :: rest, here, p =>
    if here < offset then
      if c = '\n' then Place.scan offset rest (here + 1) ⟨p.line + 1,1⟩
      else Place.scan offset rest (here + 1) ⟨p.line,p.column + 1⟩
    else p

/-- Where an offset lies.  Only a line feed ends a line. -/
def Place.of (source : List Char) (offset : Nat) : Place :=
  Place.scan offset source 1 ⟨1,1⟩

end PreviewCompiler.Script
