import PreviewCompiler.Files.Operation
import PreviewCompiler.Hash.Fingerprint

namespace PreviewCompiler

open Data

inductive FileKind where
  | file
  | directory
  deriving DecidableEq, Repr

/-- An entry that knows its path.  A directory has no content. -/
structure VirtualFile where
  path : String
  content : String
  kind : FileKind
  deriving DecidableEq, Repr

namespace VirtualFile

def isFile (f : VirtualFile) : Bool := f.kind == .file

def directory (path : String) : VirtualFile := ⟨path,"",.directory⟩

def entry (f : VirtualFile) : Entry :=
  match f.kind with
  | .file => .file f.content
  | .directory => .directory

end VirtualFile

/-- A snapshot as it is stored, its entries behind their paths and with them.  What is stored is read by the paths of
the entries: by fingerprints, by compilation and by a rename. -/
abbrev VirtualFiles := OrderedMap String VirtualFile

namespace VirtualFiles

def get? (path : String) (fs : VirtualFiles) : Option VirtualFile := OrderedMap.find? path fs

def isFile (path : String) (fs : VirtualFiles) : Bool := (get? path fs).any VirtualFile.isFile

def insertParents (path : String) (fs : VirtualFiles) : VirtualFiles :=
  (Path.ancestors path).foldl (fun fs p => OrderedMap.insertNew p (.directory p) fs) fs

def insertFile (path content : String) (fs : VirtualFiles) : VirtualFiles :=
  let path := Path.normalize path
  OrderedMap.insert path ⟨path,content,.file⟩ (insertParents path fs)

def insertDirectory (path : String) (fs : VirtualFiles) : VirtualFiles :=
  let path := Path.normalize path
  if path = "/" then fs else OrderedMap.insertNew path (.directory path) (insertParents path fs)

def remove (path : String) (fs : VirtualFiles) : Option (VirtualFile × VirtualFiles) :=
  let path := Path.normalize path
  (get? path fs).map fun f =>
    let rest := OrderedMap.erase path fs
    (f,if f.isFile then rest else rest.filter fun e => !FileSet.isBelow path e.1)

def files (fs : VirtualFiles) : List VirtualFile := fs.values.filter (·.isFile)

def fingerprint (fs : VirtualFiles) : String := Fingerprint.ofTexts (fs.files.map fun f => (f.path,f.content))

def entriesAt (path : String) (fs : VirtualFiles) : List VirtualFile :=
  fs.values.filter fun f => f.path == path || FileSet.isBelow path f.path

def insertMoved (source target : String) (fs : VirtualFiles) (f : VirtualFile) : VirtualFiles :=
  let path := FileOperation.movePath source target f.path
  match f.kind with
  | .file => insertFile path f.content fs
  | .directory => insertDirectory path fs

def run (op : FileOperation) (fs : VirtualFiles) : Except OperationFault VirtualFiles :=
  match op with
  | .create path content =>
    let path := Path.normalize path
    if (get? path fs).isSome then .error ⟨"create",path,"already exists"⟩ else .ok (insertFile path content fs)
  | .createDirectory path =>
    let path := Path.normalize path
    if isFile path fs then .error ⟨"mkdir",path,"a file with that name exists"⟩ else .ok (insertDirectory path fs)
  | .edit path content =>
    let path := Path.normalize path
    if isFile path fs then .ok (insertFile path content fs) else .error ⟨"edit",path,"no such file"⟩
  | .rename source target =>
    let source := Path.normalize source
    let target := Path.normalize target
    if (get? target fs).isSome then .error ⟨"rename",target,"destination already exists"⟩
    else
      match entriesAt source fs with
      | [] => .error ⟨"rename",source,"no such file or directory"⟩
      | moved =>
        let rest := ((remove source fs).map (·.2)).getD fs
        .ok (moved.foldl (insertMoved source target) rest)
  | .delete path =>
    let path := Path.normalize path
    match remove path fs with
    | some (_,fs) => .ok fs
    | none => .error ⟨"delete",path,"no such file or directory"⟩

end VirtualFiles

end PreviewCompiler
