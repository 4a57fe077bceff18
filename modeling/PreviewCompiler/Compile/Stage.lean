import PreviewCompiler.Compile.Transform

namespace PreviewCompiler

/-- A template with the fingerprint of all that its final text depends on but addresses. -/
structure StagedModule where
  template : Template
  templateHash : String
  deriving DecidableEq, Repr

namespace StagedModule

def path (m : StagedModule) : String := m.template.path

def imports (m : StagedModule) (path : String) : Bool := m.template.links.modules.contains path

def ofTemplate (t : Template) : StagedModule where
  template := t
  templateHash :=
    Fingerprint.ofTexts (("template",t.text) :: t.links.modules.map fun d => ("dep",d))

end StagedModule

/-- The template of every module of a snapshot, in ascending order of the paths. -/
abbrev StagedBuild := List StagedModule

namespace StagedBuild

def paths (b : StagedBuild) : List String := b.map StagedModule.path

def importers (path : String) (b : StagedBuild) : StagedBuild := b.filter (·.imports path)

def others (path : String) (b : StagedBuild) : StagedBuild := b.filter (!·.imports path)

theorem length_paths (b : StagedBuild) : b.paths.length = b.length := List.length_map ..

theorem length_importers_add_length_others (path : String) (b : StagedBuild) :
    (b.importers path).length + (b.others path).length = b.length := by
  rw [importers,others,← List.countP_eq_length_filter,← List.countP_eq_length_filter,
    List.length_eq_countP_add_countP (·.imports path)]
  simp

end StagedBuild

namespace FileSet

def modules (fs : FileSet) : List (String × String) := fs.files.filter fun f => Path.isModule f.1

/-- Compile all modules of a snapshot; of several errors that of the first path counts. -/
def stage (fs : FileSet) (redirects : Redirects) (options : TransformOptions) :
    Except CompileError StagedBuild :=
  fs.modules.mapM fun (path,content) =>
    StagedModule.ofTemplate <$> Template.compile fs redirects options path content

end FileSet

end PreviewCompiler
