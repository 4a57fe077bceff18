import PreviewCompiler.Disk.Fault
import PreviewCompiler.Disk.Node

namespace PreviewCompiler

/-- A tree of directories with a place in it from which relative paths start. -/
structure Disk where
  top : DiskNode := .directory []
  here : List RawText := []

namespace Disk

/-- A text behind another one, as `RawText.join` puts paths. -/
def join (front path : String) : String := ((front : RawText).join path).shown

def parentPath (path : String) : String := (path : RawText).parent.shown

def pathOf (place : List RawText) : RawText := ⟨RawText.slash :: (RawText.ofPlace place).bytes⟩

def linkLimit : Nat := 40

def nameLimit : Nat := 255

/-- Follow names from a place.  The place that is reached exists, or it is only its last name that does not.
A link at the end is followed on request. -/
def follow (top : DiskNode) (followsLast : Bool) :
    (links : Nat) → (names place : List RawText) → Except DiskFault (List RawText)
  | _, [], place => .ok place
  | links, name :: rest, place =>
    if !(top.get? place).any DiskNode.isDirectory then .error .notDirectory
    else if name = "." then follow top followsLast links rest place
    else if name = ".." then follow top followsLast links rest place.dropLast
    else if nameLimit < name.bytes.length then .error .nameTooLong
    else
      match top.get? (place ++ [name]) with
      | none => if rest.isEmpty then .ok (place ++ [name]) else .error .notFound
      | some (.link target) =>
        if rest.isEmpty && !followsLast then .ok (place ++ [name])
        else
          match links with
          | 0 => .error .tooManyLinks
          | links + 1 =>
            follow top followsLast links (target.names ++ rest) (if target.isAbsolute then [] else place)
      | some _ => follow top followsLast links rest (place ++ [name])
termination_by links names => (links,names.length)

/-- The place that a path leads to, which may be missing in its directory. -/
def locate (path : RawText) (followsLast : Bool) (d : Disk) : Except DiskFault (List RawText) :=
  if path.bytes.isEmpty then .error .notFound
  else follow d.top followsLast linkLimit path.names (if path.isAbsolute then [] else d.here)

def find (path : RawText) (d : Disk) : Except DiskFault (List RawText × DiskNode) := do
  let place ← d.locate path true
  match d.top.get? place with
  | some n => return (place,n)
  | none => throw .notFound

/-- The absolute path without links and dots of what a path leads to. -/
def canonicalize (path : RawText) (d : Disk) : Except DiskFault RawText :=
  (fun found => pathOf found.1) <$> d.find path

def isFile (path : RawText) (d : Disk) : Bool :=
  match d.find path with
  | .ok (_,n) => n.isFile
  | .error _ => false

def read (path : RawText) (d : Disk) : Except DiskFault (List UInt8) := do
  match ← d.find path with
  | (_,.file bytes) => return bytes
  | (_,.directory _) => throw .isDirectory
  | (_,.link _) => throw .notFound

def readLossy (path : RawText) (d : Disk) : Except DiskFault String :=
  Text.Utf8.decodeLossy <$> d.read path

def readText (path : RawText) (d : Disk) : Except DiskFault String := do
  match Text.Utf8.decode? (← d.read path) with
  | some s => return s
  | none => throw .notText

def list (path : RawText) (d : Disk) : Except DiskFault (List String) := do
  match ← d.find path with
  | (_,.directory es) => return es.map (·.1.shown)
  | _ => throw .notDirectory

def put (place : List RawText) (new : Option DiskNode) (d : Disk) : Disk :=
  { d with top := d.top.set new place }

/-- Write a file; a link is followed to the file that it leads to. -/
def write (path : RawText) (bytes : List UInt8) (d : Disk) : Except DiskFault Disk := do
  let place ← d.locate path true
  if (d.top.get? place).any DiskNode.isDirectory then throw .isDirectory
  return d.put place (some (.file bytes))

/-- Make a directory and those around it, name by name from a place, and tell the place that is reached.  What
has been made stays when a later name fails. -/
def makeDirectories (place : List RawText) :
    (names : List RawText) → Disk → Except DiskFault (List RawText) × Disk
  | [], d => (.ok place,d)
  | name :: names, d =>
    match follow d.top true linkLimit [name] place with
    | .error fault => (.error fault,d)
    | .ok next =>
      match d.top.get? next with
      | some (.directory _) => makeDirectories next names d
      | some _ => (.error .notDirectory,d)
      | none =>
        if next = place ++ [name] then makeDirectories next names (d.put next (some (.directory [])))
        else (.error .alreadyThere,d)

def createDirectories (path : RawText) (d : Disk) : Except DiskFault (List RawText) × Disk :=
  makeDirectories (if path.isAbsolute then [] else d.here) path.names d

def remove (path : RawText) (d : Disk) : Except DiskFault Disk := do
  let place ← d.locate path false
  match d.top.get? place with
  | some _ => return d.put place none
  | none => throw .notFound

/-- How many bytes the name of a temporary file has more than that of the file, at the least. -/
def temporaryExtra : Nat := 7

/-- Write a file at once: the bytes go to a temporary file in the same directory, which then takes the place
of what was there, also of a link. -/
def writeAtomicIn (around : List RawText) (name : RawText) (bytes : List UInt8) (d : Disk) :
    Except DiskFault Disk :=
  if nameLimit < name.bytes.length + temporaryExtra then .error .nameTooLong
  else if (d.top.get? (around ++ [name])).any DiskNode.isDirectory then .error .isDirectory
  else .ok (d.put (around ++ [name]) (some (.file bytes)))

/-- Write the file at a path at once. -/
def writeAtomic (path : RawText) (bytes : List UInt8) (d : Disk) : Except DiskFault Disk := do
  let (around,node) ← d.find path.parent
  if !node.isDirectory then throw .notDirectory
  match (path.names.filter (· != RawText.ofText ".")).getLast? with
  | none => throw .busy
  | some name =>
    if name = ".." then throw .busy
    if nameLimit < name.bytes.length + temporaryExtra then throw .nameTooLong
    if path.bytes.getLast? == some RawText.slash then throw .notDirectory
    d.writeAtomicIn around name bytes

end Disk

end PreviewCompiler
