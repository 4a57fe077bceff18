import PreviewCompiler.Data.OrderedMap
import PreviewCompiler.Files.Path

namespace PreviewCompiler

open Data

inductive Entry where
  | file (content : String)
  | directory
  deriving DecidableEq, Repr

namespace Entry

def isFile : Entry → Bool
  | file _ => true
  | directory => false

def content : Entry → String
  | file c => c
  | directory => ""

end Entry

/-- Files and directories by their canonical paths, in ascending order.  Whatever is inserted comes with the
directories around it. -/
abbrev FileSet := OrderedMap String Entry

namespace FileSet

def get? (path : String) (fs : FileSet) : Option Entry := OrderedMap.find? path fs

def isFile (path : String) (fs : FileSet) : Bool := (get? path fs).any Entry.isFile

def isDirectory (path : String) (fs : FileSet) : Bool := (get? path fs).any (!·.isFile)

/-- Make the directories around a canonical path; what is there already stays. -/
def insertParents (path : String) (fs : FileSet) : FileSet :=
  (Path.ancestors path).foldl (fun fs p => OrderedMap.insertNew p .directory fs) fs

def insertFile (path content : String) (fs : FileSet) : FileSet :=
  let path := Path.normalize path
  OrderedMap.insert path (.file content) (insertParents path fs)

def insertDirectory (path : String) (fs : FileSet) : FileSet :=
  let path := Path.normalize path
  if path = "/" then fs else OrderedMap.insertNew path .directory (insertParents path fs)

def isBelow (top path : String) : Bool := (top.toList ++ ['/']).isPrefixOf path.toList

def remove (path : String) (fs : FileSet) : Option (Entry × FileSet) :=
  let path := Path.normalize path
  (get? path fs).map fun e =>
    let rest := OrderedMap.erase path fs
    (e,if e.isFile then rest else rest.filter fun (p,_) => !isBelow path p)

/-- The files with their contents, in ascending order of the paths. -/
def files (fs : FileSet) : List (String × String) :=
  fs.filterMap fun
    | (p,.file c) => some (p,c)
    | (_,.directory) => none

/-- The snapshot of some files; of two with one path the later one counts. -/
def ofFiles (files : List (String × String)) : FileSet :=
  files.foldl (fun fs (p,c) => insertFile p c fs) []

end FileSet

end PreviewCompiler
