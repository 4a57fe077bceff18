import PreviewCompiler.Disk.Basic
import PreviewCompiler.Files.FileSet

namespace PreviewCompiler

namespace Disk

/-- Names that do not belong to a project. -/
def ignoredNames : List String := ["node_modules","target","dist","build",".git"]

def isIgnoredName (name : String) : Bool := name.toList.head? == some '.' || ignoredNames.contains name

/-- Is an entry with this name left out?  One whose name is no text is. -/
def isIgnored (name : RawText) : Bool :=
  match name.text? with
  | some s => isIgnoredName s
  | none => true

/-- What a walk finds, at a place below the directory where it begins. -/
inductive Walked where
  | file (place : List RawText) (bytes : List UInt8)
  | directory (place : List RawText)
  deriving DecidableEq, Repr

namespace Walked

def place : Walked → List RawText
  | file place _ => place
  | directory place => place

/-- The names as they are shown, with slashes between them. -/
def path (w : Walked) : String := "/".intercalate (w.place.map RawText.shown)

end Walked

mutual

/-- What is found at a place where `n` is: itself and all below it. -/
def walkNode (place : List RawText) (n : DiskNode) : List Walked :=
  match n with
  | .file bytes => [.file place bytes]
  | .link _ => []
  | .directory es => .directory place :: walkEntries place es

def walkEntries (place : List RawText) : List (RawText × DiskNode) → List Walked
  | [] => []
  | (name,n) :: es =>
    (if isIgnored name then [] else walkNode (place ++ [name]) n) ++ walkEntries place es

end

def walkBelow : DiskNode → List Walked
  | .directory es => walkEntries [] es
  | _ => []

def walk (root : RawText) (d : Disk) : Except DiskFault (List Walked) :=
  (fun found => walkBelow found.2) <$> d.find root

/-- Does a change at a path not matter for the snapshot of the project at `root`? -/
def ignoresChange (root path : RawText) : Bool :=
  !root.components.isPrefixOf path.components || (path.components.drop root.components.length).any isIgnored

end Disk

namespace FileSet

def insertWalked (fs : FileSet) (w : Disk.Walked) : FileSet :=
  match w with
  | .file _ bytes => insertFile w.path (Text.Utf8.decodeLossy bytes) fs
  | .directory _ => insertDirectory w.path fs

/-- The snapshot that a walk gives. -/
def ofWalk (found : List Disk.Walked) : FileSet := found.foldl insertWalked []

end FileSet

end PreviewCompiler
