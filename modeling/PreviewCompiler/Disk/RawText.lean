import PreviewCompiler.Text.Split
import PreviewCompiler.Text.Utf8

namespace PreviewCompiler

/-- A name or a path as a disk has it: bytes, which need not be a text. -/
structure RawText where
  bytes : List UInt8
  deriving DecidableEq, Repr

namespace RawText

def ofText (s : String) : RawText := ⟨textBytes s⟩

instance : Coe String RawText := ⟨ofText⟩

/-- The text that the bytes are, if they are one. -/
def text? (r : RawText) : Option String := Text.Utf8.decode? r.bytes

/-- What is shown of it: a replacement character stands for every fault. -/
def shown (r : RawText) : String := Text.Utf8.decodeLossy r.bytes

instance : LT RawText := ⟨fun r r' => r.bytes < r'.bytes⟩

instance : DecidableLT RawText := fun r r' => inferInstanceAs (Decidable (r.bytes < r'.bytes))

instance : Std.Irrefl fun r r' : RawText => r < r' :=
  ⟨fun r => Std.Irrefl.irrefl (r := fun bytes bytes' : List UInt8 => bytes < bytes') r.bytes⟩

def slash : UInt8 := '/'.toUInt8

def isAbsolute (path : RawText) : Bool := path.bytes.head? == some slash

def pieces (path : RawText) : List RawText := (Text.splitAll (· == slash) path.bytes).map RawText.mk

/-- The names in a path.  A slash at the end asks for a directory, as a dot does. -/
def names (path : RawText) : List RawText :=
  let parts := path.pieces.filter (· != ("" : RawText))
  if path.bytes.getLast? == some slash then parts ++ [ofText "."] else parts

/-- A path behind another one, which it does not need if it is absolute. -/
def join (front path : RawText) : RawText :=
  if path.isAbsolute then path
  else if front.bytes.isEmpty || front.bytes.getLast? == some slash then ⟨front.bytes ++ path.bytes⟩
  else ⟨front.bytes ++ slash :: path.bytes⟩

/-- The path without its last name. -/
def parent (path : RawText) : RawText :=
  let back := (path.bytes.reverse.dropWhile (· == slash)).dropWhile (· != slash)
  let front := (back.dropWhile (· == slash)).reverse
  if front.isEmpty then (if path.isAbsolute then "/" else ".") else ⟨front⟩

/-- The path from a directory to a place below it: the names with slashes between them. -/
def ofPlace (place : List RawText) : RawText := ⟨(place.flatMap fun name => slash :: name.bytes).drop 1⟩

/-- The names in a path as they count for a comparison; a dot counts at the start only. -/
def components (path : RawText) : List RawText :=
  let inner := path.pieces.filter fun p : RawText => p != "" && p != "."
  if path.isAbsolute then "/" :: inner
  else if path.pieces.head? == some "." then "." :: inner
  else inner

end RawText

end PreviewCompiler
