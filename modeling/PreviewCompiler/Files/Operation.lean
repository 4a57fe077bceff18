import PreviewCompiler.Files.FileSet
import PreviewCompiler.Json.Decoder

namespace PreviewCompiler

open Data Json

inductive FileOperation where
  | create (path content : String)
  | createDirectory (path : String)
  | edit (path content : String)
  | rename (source target : String)
  | delete (path : String)
  deriving DecidableEq, Repr

structure OperationFault where
  operation : String
  path : String
  reason : String
  deriving DecidableEq, Repr

def OperationFault.message (f : OperationFault) : String :=
  f.operation ++ " " ++ f.path ++ ": " ++ f.reason

namespace FileOperation

def entriesAt (path : String) (fs : FileSet) : List (String × Entry) :=
  fs.filter fun (p,_) => p == path || FileSet.isBelow path p

/-- A path at or below `source` moved to the same place at or below `target`. -/
def movePath (source target path : String) : String :=
  target ++ String.ofList (path.toList.drop source.toList.length)

def insertMoved (source target : String) (fs : FileSet) (e : String × Entry) : FileSet :=
  let path := movePath source target e.1
  match e.2 with
  | .file content => FileSet.insertFile path content fs
  | .directory => FileSet.insertDirectory path fs

/-- The files after an operation; one that fails changes nothing. -/
def run (op : FileOperation) (fs : FileSet) : Except OperationFault FileSet :=
  match op with
  | create path content =>
    let path := Path.normalize path
    if (FileSet.get? path fs).isSome then .error ⟨"create",path,"already exists"⟩
    else .ok (FileSet.insertFile path content fs)
  | createDirectory path =>
    let path := Path.normalize path
    if FileSet.isFile path fs then .error ⟨"mkdir",path,"a file with that name exists"⟩
    else .ok (FileSet.insertDirectory path fs)
  | edit path content =>
    let path := Path.normalize path
    if FileSet.isFile path fs then .ok (FileSet.insertFile path content fs)
    else .error ⟨"edit",path,"no such file"⟩
  | rename source target =>
    let source := Path.normalize source
    let target := Path.normalize target
    if (FileSet.get? target fs).isSome then .error ⟨"rename",target,"destination already exists"⟩
    else
      match entriesAt source fs with
      | [] => .error ⟨"rename",source,"no such file or directory"⟩
      | moved =>
        let rest := ((FileSet.remove source fs).map (·.2)).getD fs
        .ok (moved.foldl (insertMoved source target) rest)
  | delete path =>
    let path := Path.normalize path
    match FileSet.remove path fs with
    | some (_,fs) => .ok fs
    | none => .error ⟨"delete",path,"no such file or directory"⟩

/-- The fields of an operation that has paths or contents by these names. -/
def textPart (name : String) (set : String → FileOperation → FileOperation) : Json.Part FileOperation :=
  ⟨name,fun v op => return set (← Json.asString v) op,false⟩

def setPath (p : String) : FileOperation → FileOperation
  | create _ c => create p c
  | createDirectory _ => createDirectory p
  | edit _ c => edit p c
  | delete _ => delete p
  | op => op

def setContent (c : String) : FileOperation → FileOperation
  | create p _ => create p c
  | edit p _ => edit p c
  | op => op

def setSource (s : String) : FileOperation → FileOperation
  | rename _ t => rename s t
  | op => op

def setTarget (t : String) : FileOperation → FileOperation
  | rename s _ => rename s t
  | op => op

/-- The kinds of operations by their names, none of them filled in. -/
def kinds : List (String × FileOperation) :=
  [("create",create "" ""),("create_dir",createDirectory ""),("edit",edit "" ""),
   ("rename",rename "" ""),("delete",delete "")]

/-- The name that error texts show for a kind. -/
def kindName : FileOperation → String
  | create .. => "Create"
  | createDirectory _ => "CreateDir"
  | edit .. => "Edit"
  | rename .. => "Rename"
  | delete _ => "Delete"

/-- What is filled into a kind. -/
def parts : FileOperation → List (Json.Part FileOperation)
  | create .. | edit .. => [textPart "path" setPath,textPart "content" setContent]
  | createDirectory _ | delete _ => [textPart "path" setPath]
  | rename .. => [textPart "from" setSource,textPart "to" setTarget]

def ofJson (kind : FileOperation) (fields : Json) : Except Cause FileOperation :=
  Json.decodeRecord ("struct variant FsOperation::" ++ kind.kindName) kind.parts kind fields

def read : Read FileOperation := do
  let (kind,fields) ← Read.tagged "FsOperation" "op" kinds
  match ofJson kind fields with
  | .ok op => return op
  | .error cause => Read.failAround cause

def parse (s : String) : Except Fault FileOperation := Read.runAll read s

def toJson : FileOperation → Json
  | create p c => .object [("op",.string "create"),("path",.string p),("content",.string c)]
  | createDirectory p => .object [("op",.string "create_dir"),("path",.string p)]
  | edit p c => .object [("op",.string "edit"),("path",.string p),("content",.string c)]
  | rename s t => .object [("op",.string "rename"),("from",.string s),("to",.string t)]
  | delete p => .object [("op",.string "delete"),("path",.string p)]

end FileOperation

structure MemoryFiles where
  files : FileSet := []
  version : Nat := 0
  deriving DecidableEq, Repr

def MemoryFiles.apply (op : FileOperation) (m : MemoryFiles) : Except OperationFault MemoryFiles :=
  return { files := ← op.run m.files, version := m.version + 1 }

namespace FileSet

/-- The snapshot that a JSON object of contents by path describes.  The paths count in ascending order. -/
def parse (s : String) : Except Fault FileSet :=
  (fun fs => FileSet.ofFiles (OrderedMap.ofList fs)) <$> Read.runAll (Read.map Read.string) s

end FileSet

end PreviewCompiler
