import PreviewCompiler.Data.OrderedMap

namespace PreviewCompiler

open Data

structure Reference where
  space : String
  id : Nat
  deriving DecidableEq, Repr

namespace Reference

def front : String := "/@blob/"

def text (r : Reference) : String := front ++ r.space ++ "/" ++ toString r.id ++ ".js"

end Reference

structure BlobStats where
  live : Nat
  minted : Nat
  released : Nat
  deriving DecidableEq, Repr

/-- The code behind the references of one space.  No number is given out twice, so the code behind a reference
never changes: it is there until the reference is released, and never again. -/
structure BlobStore where
  space : String
  /-- How many references have been given out; the last one has this number. -/
  minted : Nat := 0
  released : Nat := 0
  /-- The live references by their addresses; one that has just been given out has no code yet. -/
  live : OrderedMap String (Option String) := []
  deriving DecidableEq, Repr

namespace BlobStore

def reference (b : BlobStore) (id : Nat) : Reference := ⟨b.space,id⟩

/-- Give out the next reference, with no code behind it. -/
def allocate (b : BlobStore) : Reference × BlobStore :=
  let r := b.reference (b.minted + 1)
  (r,{ b with minted := b.minted + 1, live := OrderedMap.insert r.text none b.live })

/-- Put code behind a live reference that has none; tells whether it was one. -/
def bind (r : Reference) (code : String) (b : BlobStore) : Bool × BlobStore :=
  match OrderedMap.find? r.text b.live with
  | some none => (true,{ b with live := OrderedMap.insert r.text (some code) b.live })
  | _ => (false,b)

def isLive (r : Reference) (b : BlobStore) : Bool := OrderedMap.contains r.text b.live

def release (r : Reference) (b : BlobStore) : Bool × BlobStore :=
  if b.isLive r then
    (true,{ b with released := b.released + 1, live := OrderedMap.erase r.text b.live })
  else (false,b)

def releaseAll (b : BlobStore) : BlobStore :=
  { b with released := b.released + b.live.length, live := [] }

def get? (address : String) (b : BlobStore) : Option String := (OrderedMap.find? address b.live).join

def stats (b : BlobStore) : BlobStats where
  live := b.live.length
  minted := b.minted
  released := b.released

end BlobStore

end PreviewCompiler
