import PreviewCompiler.Hash.Blake3
import PreviewCompiler.Text.Utf8

namespace PreviewCompiler

namespace Fingerprint

def lengthBytes (n : Nat) : List UInt8 := (List.range 8).map fun i => (n / Nat.pow 256 i).toUInt8

def part (bytes : List UInt8) : List UInt8 := lengthBytes bytes.length ++ bytes

/-- What is hashed for some entries.  Each text has its length in front, so that different entries give
different bytes. -/
def encode (entries : List (String × List UInt8)) : List UInt8 :=
  entries.flatMap fun (key,value) => part (textBytes key) ++ part value

def ofEntries (entries : List (String × List UInt8)) : String := Blake3.hash (encode entries)

def ofTexts (entries : List (String × String)) : String :=
  ofEntries (entries.map fun (key,text) => (key,textBytes text))

end Fingerprint

def textHash (s : String) : String := Blake3.hash (textBytes s)

end PreviewCompiler
