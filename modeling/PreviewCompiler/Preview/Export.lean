import PreviewCompiler.Disk.RawText
import PreviewCompiler.Preview.Session

namespace PreviewCompiler

structure ExportedFile where
  place : List RawText
  text : String
  deriving DecidableEq, Repr

namespace Reference

def place (r : Reference) : List RawText := ["@blob",r.space,toString r.id ++ ".js"]

end Reference

namespace PreviewSession

/-- What any server can deliver the preview from: the document, and the code of every module at its reference.
Without a document there is nothing. -/
def exportedFiles (s : PreviewSession) : List ExportedFile :=
  match s.document with
  | none => []
  | some d => ⟨["index.html"],d.html⟩ :: s.registry.modules.map fun (_,m) => ⟨m.reference.place,m.code⟩

theorem length_exportedFiles {s : PreviewSession} {d : PreviewDocument} (h : s.document = some d) :
    s.exportedFiles.length = s.registry.modules.length + 1 := by
  simp [exportedFiles,h]

end PreviewSession

end PreviewCompiler
