import PreviewCompiler.Data.OrderedMap
import PreviewCompiler.Disk.RawText

namespace PreviewCompiler

open Data

/-- What stands at a place of a disk; the names of a directory are in ascending order. -/
inductive DiskNode where
  | file (bytes : List UInt8)
  | link (target : RawText)
  | directory (entries : List (RawText × DiskNode))

namespace DiskNode

def isDirectory : DiskNode → Bool
  | directory _ => true
  | _ => false

def isFile : DiskNode → Bool
  | file _ => true
  | _ => false

/-- The entry of a directory; links are not followed. -/
def child? (name : RawText) : DiskNode → Option DiskNode
  | directory es => OrderedMap.find? name es
  | _ => none

def get? (n : DiskNode) : (place : List RawText) → Option DiskNode
  | [] => some n
  | name :: names =>
    match n.child? name with
    | some child => child.get? names
    | none => none

/-- Put something at a place, or take away what is there; nothing happens where the directory around the
place is missing. -/
def set (new : Option DiskNode) : (place : List RawText) → DiskNode → DiskNode
  | [name], directory es =>
    match new with
    | some n => directory (OrderedMap.insert name n es)
    | none => directory (OrderedMap.erase name es)
  | name :: names, directory es =>
    match OrderedMap.find? name es with
    | some child => directory (OrderedMap.insert name (set new names child) es)
    | none => directory es
  | _, n => n

theorem get?_nil (n : DiskNode) : n.get? [] = some n := by simp [get?]

theorem get?_set_self (new : DiskNode) (name : RawText) (es : List (RawText × DiskNode)) :
    (set (some new) [name] (directory es)).get? [name] = some new := by
  simp [set,get?,child?,OrderedMap.find?_insert_self]

end DiskNode

end PreviewCompiler
