import PreviewCompiler.Files.Operation

namespace PreviewCompiler

open Data FileSet PreviewCompiler.Path

/-- Steps on files in place, which can fail.  What has been written before stays then. -/
abbrev InPlace := ExceptT OperationFault (StateM FileSet)

namespace InPlace

def run {α : Type} (x : InPlace α) (fs : FileSet) : Except OperationFault α × FileSet := StateT.run (ExceptT.run x) fs

def write (f : FileSet → FileSet) : InPlace Unit := modify f

/-- Take an entry away, then all below it if it is a directory; tells what it was. -/
def takeAway (path : String) : InPlace (Option Entry) := do
  let path := normalize path
  match get? path (← get) with
  | none => return none
  | some e =>
    write (OrderedMap.erase path)
    unless e.isFile do
      write fun fs => fs.filter fun (p,_) => !isBelow path p
    return some e

end InPlace

namespace FileOperation

open InPlace

/-- An operation step by step, on the files in place. -/
def perform : FileOperation → InPlace Unit
  | create path content => do
    let path := normalize path
    if (get? path (← get)).isSome then throw ⟨"create",path,"already exists"⟩
    write (insertFile path content)
  | createDirectory path => do
    let path := normalize path
    if isFile path (← get) then throw ⟨"mkdir",path,"a file with that name exists"⟩
    write (insertDirectory path)
  | edit path content => do
    let path := normalize path
    if !isFile path (← get) then throw ⟨"edit",path,"no such file"⟩
    write (insertFile path content)
  | rename source target => do
    let source := normalize source
    let target := normalize target
    if (get? target (← get)).isSome then throw ⟨"rename",target,"destination already exists"⟩
    let moved := entriesAt source (← get)
    if moved.isEmpty then throw ⟨"rename",source,"no such file or directory"⟩
    let _ ← takeAway source
    moved.forM fun e => write (insertMoved source target · e)
  | delete path => do
    let path := normalize path
    if (← takeAway path).isNone then throw ⟨"delete",path,"no such file or directory"⟩

end FileOperation

/-- A number in a cell, and those who watch it: each of them is told if it has been changed since that one last
looked. -/
structure WatchCell (κ ω : Type) where
  value : κ → Nat
  modify : (Nat → Nat) → κ → κ
  hasChanged : ω → κ → Bool
  look : ω → κ → κ

structure WatchedFiles (κ : Type) where
  files : FileSet
  version : κ

namespace WatchedFiles

variable {κ ω : Type}

/-- Apply an operation in place.  If it succeeds, the version goes up and is told. -/
def apply (w : WatchCell κ ω) (op : FileOperation) (m : WatchedFiles κ) :
    Except OperationFault Nat × WatchedFiles κ :=
  match op.perform.run m.files with
  | (.ok (),files) => (.ok (w.value m.version + 1),⟨files,w.modify (· + 1) m.version⟩)
  | (.error fault,files) => (.error fault,{ m with files })

def plain (w : WatchCell κ ω) (m : WatchedFiles κ) : MemoryFiles := ⟨m.files,w.value m.version⟩

def lookAll (w : WatchCell κ ω) (is : List ω) (m : WatchedFiles κ) : WatchedFiles κ :=
  { m with version := is.foldl (fun c i => w.look i c) m.version }

/-- Apply operations.  After each of them some look, and then the watcher does.  Tells what each operation answers and
whether the watcher then sees a change. -/
def watch (w : WatchCell κ ω) (i : ω) :
    List (FileOperation × List ω) → WatchedFiles κ → List (Except OperationFault Nat × Bool) × WatchedFiles κ
  | [], m => ([],m)
  | (op,others) :: steps, m =>
    let (answer,m) := m.apply w op
    let m := m.lookAll w others
    let (later,last) := watch w i steps (m.lookAll w [i])
    ((answer,w.hasChanged i m.version) :: later,last)

end WatchedFiles

end PreviewCompiler
