import PreviewCompiler.Compile.Stage
import PreviewCompiler.Registry.Blob

namespace PreviewCompiler

open Data

/-- A module with its final code. -/
structure CompiledModule where
  code : String
  sourceHash : String
  templateHash : String
  reference : Reference
  links : Links
  deriving DecidableEq, Repr

/-- A staged module with the code that it has under a reference. -/
def CompiledModule.ofStaged (m : StagedModule) (code : String) (reference : Reference) : CompiledModule where
  code
  sourceHash := m.template.sourceHash
  templateHash := m.templateHash
  reference
  links := m.template.links

structure Registry where
  blobs : BlobStore
  modules : OrderedMap String CompiledModule := []
  deriving DecidableEq, Repr

structure CommitSummary where
  minted : Nat := 0
  released : Nat := 0
  reused : Nat := 0
  deriving DecidableEq, Repr

namespace Registry

def empty (space : String) : Registry := { blobs := { space } }

def module? (path : String) (r : Registry) : Option CompiledModule := OrderedMap.find? path r.modules

def contains (path : String) (r : Registry) : Bool := OrderedMap.contains path r.modules

def reference? (path : String) (r : Registry) : Option Reference := (r.module? path).map (·.reference)

def packages (r : Registry) : List PackageSpec :=
  (r.modules.flatMap fun e => e.2.links.packages).foldl (fun ps p => p.insert ps) []

def stats (r : Registry) : BlobStats := r.blobs.stats

def dereference (address : String) (r : Registry) : Option String := r.blobs.get? address

/-- The module behind an address, which may start with the name of a server. -/
def pathOf? (url : String) (r : Registry) : Option String := do
  let (_,back) ← Text.cutAt? Reference.front.toList url.toList
  let address := Reference.front ++ String.ofList back
  (List.find? (fun e => e.2.reference.text == address) r.modules).map (·.1)

/-- Take the module at a path away; those that import it keep its address until the next commit. -/
def release (path : String) (r : Registry) : Option Registry :=
  (r.module? path).map fun m =>
    { blobs := (r.blobs.release m.reference).2, modules := OrderedMap.erase path r.modules }

def releaseAll (r : Registry) : Registry := { blobs := r.blobs.releaseAll, modules := [] }

def isSame (r : Registry) (m : StagedModule) : Bool :=
  (r.module? m.path).any fun old =>
    old.sourceHash == m.template.sourceHash && old.templateHash == m.templateHash

/-- The paths of a queue, and those of the modules of `clean` that import one of them, directly or through
others of `clean`. -/
def spread : (clean : StagedBuild) → (queue : List String) → List String
  | _, [] => []
  | clean, path :: queue =>
    path :: spread (clean.others path) ((clean.importers path).paths ++ queue)
termination_by clean queue => clean.length + queue.length
decreasing_by
  have := clean.length_importers_add_length_others path
  simp only [List.length_append,StagedBuild.length_paths,List.length_cons]
  omega

/-- The modules of a build that are new, have changed, or import one that has. -/
def changedPaths (r : Registry) (staged : StagedBuild) : List String :=
  let changed : StagedBuild := staged.filter (!r.isSame ·)
  spread (staged.filter (r.isSame ·)) changed.paths

end Registry

structure Commit where
  registry : Registry
  summary : CommitSummary := {}
  references : OrderedMap String Reference := []
  deriving DecidableEq, Repr

namespace Commit

/-- Release the module at a path that the build does not have any more.  It counts if its reference was live. -/
def discard (c : Commit) (path : String) : Commit :=
  match c.registry.module? path with
  | some m =>
    let (wasLive,blobs) := c.registry.blobs.release m.reference
    { c with
      registry := { blobs, modules := OrderedMap.erase path c.registry.modules }
      summary := { c.summary with released := c.summary.released + wasLive.toNat } }
  | none => c

/-- Release the module at a path that has changed, if there is one.  It counts in any case. -/
def release (c : Commit) (path : String) : Commit :=
  match c.registry.release path with
  | some registry => { c with registry, summary := { c.summary with released := c.summary.released + 1 } }
  | none => c

/-- Note the reference of a staged module, which is a new one unless the module is registered. -/
def refer (c : Commit) (m : StagedModule) : Commit :=
  match c.registry.module? m.path with
  | some old => { c with references := OrderedMap.insert m.path old.reference c.references }
  | none =>
    let (reference,blobs) := c.registry.blobs.allocate
    { registry := { c.registry with blobs }
      summary := { c.summary with minted := c.summary.minted + 1 }
      references := OrderedMap.insert m.path reference c.references }

def finalCode (c : Commit) (t : Template) : String :=
  substitute t.text (t.links.modules.map fun d =>
    ((OrderedMap.find? d c.references).map Reference.text).getD "")

/-- Register a staged module with its final code, unless it is registered. -/
def register (c : Commit) (m : StagedModule) : Commit :=
  if c.registry.contains m.path then { c with summary := { c.summary with reused := c.summary.reused + 1 } }
  else
    match OrderedMap.find? m.path c.references with
    | none => c
    | some reference =>
      let code := c.finalCode m.template
      let registry : Registry :=
        { blobs := (c.registry.blobs.bind reference code).2
          modules := OrderedMap.insert m.path (.ofStaged m code reference) c.registry.modules }
      { c with registry }

end Commit

namespace Registry

/-- Make a build the content of the registry.  A module keeps its reference if neither it nor anything that it
imports has changed; all others are given new ones. -/
def commit (r : Registry) (staged : StagedBuild) : Registry × CommitSummary :=
  let absent := r.modules.keys.filter (!staged.paths.contains ·)
  let c := absent.foldl Commit.discard { registry := r }
  let c := (c.registry.changedPaths staged).foldl Commit.release c
  let c := staged.foldl Commit.refer c
  let c := staged.foldl Commit.register c
  (c.registry,c.summary)

def recompileAll (r : Registry) (fs : FileSet) (redirects : Redirects) (options : TransformOptions) :
    Except CompileError (Registry × CommitSummary) :=
  r.commit <$> fs.stage redirects options

end Registry

end PreviewCompiler
