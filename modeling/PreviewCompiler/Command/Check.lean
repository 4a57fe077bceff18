import PreviewCompiler.Command.Fault
import PreviewCompiler.Command.Report
import PreviewCompiler.Preview.Export

namespace PreviewCompiler.Command

structure OpenedProject where
  root : RawText
  config : ProjectConfig
  deriving DecidableEq, Repr

def OpenedProject.at? (path : RawText) (d : Disk) : Except CommandFault OpenedProject :=
  match d.canonicalize path with
  | .error fault => .error (.notOpened path.shown fault)
  | .ok root =>
    match ProjectConfig.load root d with
    | .error fault => .error (.project fault)
    | .ok config => .ok ⟨root,config⟩

/-- Write files below a place, each with the directories around it.  What has been written stays when a later
file fails. -/
def writeFiles (out : String) (around : List RawText) :
    List ExportedFile → Disk → Except CommandFault Unit × Disk
  | [], d => (.ok (),d)
  | f :: fs, d =>
    let path := Disk.join out (RawText.ofPlace f.place).shown
    match d.makeDirectories around f.place.dropLast with
    | (.error fault,d) => (.error (.notCreated (Disk.parentPath path) fault),d)
    | (.ok place,d) =>
      match d.writeAtomicIn place (f.place.getLastD "") (textBytes f.text) with
      | .error fault => (.error (.notWritten path fault),d)
      | .ok d => writeFiles out around fs d

/-- Export files into a directory, which is made if there are any. -/
def writeExport (out : RawText) (files : List ExportedFile) (d : Disk) : Except CommandFault Unit × Disk :=
  if files.isEmpty then (.ok (),d)
  else
    match d.createDirectories out with
    | (.error fault,d) => (.error (.notCreated out.shown fault),d)
    | (.ok place,d) => writeFiles out.shown place files d

def checkSpace : String := "check"

def compileOnce (p : OpenedProject) (fs : FileSet) : Option CompileError × PreviewSession :=
  let (outcome,session) := (PreviewSession.empty (Pipeline.ofConfig p.config) checkSpace).recompile fs
  (match outcome with
    | .failed e => some e
    | _ => none, session)

/-- Check the project at a path, and export it to `out` if it compiles. -/
def check (path : RawText) (out : Option RawText) (showsDocument showsImportMap : Bool) (d : Disk) :
    Except CommandFault CheckReport × Disk :=
  match OpenedProject.at? path d with
  | .error fault => (.error fault,d)
  | .ok project =>
    match FileSet.ofDisk project.root d with
    | .error fault => (.error (.project fault),d)
    | .ok fs =>
      let (error,session) := compileOnce project fs
      let report (notes : List String) : CheckReport :=
        .ofSession project.root.shown showsDocument showsImportMap error notes session
      match error, out with
      | none, some out =>
        match writeExport out session.exportedFiles d with
        | (.error fault,d) => (.error fault,d)
        | (.ok (),d) =>
          let n := session.exportedFiles.length
          (.ok (report ["exported " ++ toString n ++ " files to " ++ out.shown]),d)
      | _, _ => (.ok (report []),d)

end PreviewCompiler.Command
