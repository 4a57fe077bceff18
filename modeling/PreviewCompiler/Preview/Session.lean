import PreviewCompiler.Config
import PreviewCompiler.Preview.Gate
import PreviewCompiler.Preview.Message

namespace PreviewCompiler

structure Pipeline where
  redirects : Redirects := {}
  transform : TransformOptions := {}
  styles : StyleOptions := {}
  document : DocumentOptions := {}
  entries : List String := defaultEntries
  deriving DecidableEq, Repr

structure PreviewBuild where
  fingerprint : String
  staged : StagedBuild
  styles : String
  entry : String
  deriving DecidableEq, Repr

namespace FileSet

def fingerprint (fs : FileSet) : String := Fingerprint.ofTexts fs.files

end FileSet

namespace Pipeline

def ofConfig (c : ProjectConfig) : Pipeline where
  redirects := c.packages
  transform := c.jsx
  styles := c.styles
  document := c.document
  entries := c.entry

/-- Build a snapshot: its modules, its styles, and the first entry that is one of the modules. -/
def build (p : Pipeline) (fs : FileSet) : Except CompileError PreviewBuild := do
  let staged ← fs.stage p.redirects p.transform
  let styles ← fs.styles p.styles
  match p.entries.find? staged.paths.contains with
  | some entry => return { fingerprint := fs.fingerprint, staged, styles, entry }
  | none => throw (.entryMissing p.entries)

end Pipeline

/-- What became of a pass. -/
inductive ApplyOutcome where
  | applied (summary : CommitSummary)
  | unchanged
  | stale
  | failed (error : CompileError)
  deriving DecidableEq, Repr

structure PreviewSession where
  pipeline : Pipeline
  registry : Registry
  gate : Gate := {}
  document : Option PreviewDocument := none
  importMap : ImportMap := {}
  /-- The fingerprint of the snapshot that is shown. -/
  fingerprint : Option String := none
  /-- The error of the latest pass, if it failed. -/
  lastError : Option CompileError := none
  /-- The latest errors of the page that is shown, the oldest first. -/
  runtimeErrors : List RuntimeError := []
  deriving DecidableEq, Repr

namespace PreviewSession

/-- How many errors of a page are kept. -/
def errorLimit : Nat := 50

def empty (pipeline : Pipeline) (space : String) : PreviewSession :=
  { pipeline, registry := .empty space }

def request (s : PreviewSession) : Ticket × PreviewSession :=
  let (t,gate) := s.gate.request
  (t,{ s with gate })

def isCurrent (fingerprint : String) (s : PreviewSession) : Bool := s.fingerprint == some fingerprint

/-- End a pass without building, if its snapshot is shown already. -/
def settleUnchanged (t : Ticket) (fingerprint : String) (s : PreviewSession) :
    Option (ApplyOutcome × PreviewSession) :=
  if s.isCurrent fingerprint then
    match s.gate.tryCommit t with
    | none => some (.stale,s)
    | some gate => some (.unchanged,{ s with gate, lastError := none })
  else none

/-- Replace what is shown by a build. -/
def replace (t : Ticket) (b : PreviewBuild) (s : PreviewSession) : ApplyOutcome × PreviewSession :=
  let (registry,summary) := s.registry.commit b.staged
  let importMap := ImportMap.build registry s.pipeline.redirects
  match PreviewDocument.assemble importMap b.styles [b.entry] s.pipeline.document t with
  | .error e => (.failed e,{ s with registry, lastError := some e })
  | .ok document =>
    (.applied summary,
      { s with
        registry, importMap
        document := some document
        fingerprint := some b.fingerprint
        lastError := none
        runtimeErrors := [] })

/-- Apply the result of a pass.  A build replaces what is shown, unless a later pass was faster, nothing has
changed, or the build failed. -/
def apply (t : Ticket) (result : Except CompileError PreviewBuild) (s : PreviewSession) :
    ApplyOutcome × PreviewSession :=
  match s.gate.tryCommit t with
  | none => (.stale,s)
  | some gate =>
    let s := { s with gate }
    match result with
    | .error e => (.failed e,{ s with lastError := some e })
    | .ok b =>
      if s.isCurrent b.fingerprint then (.unchanged,{ s with lastError := none }) else s.replace t b

def recompile (fs : FileSet) (s : PreviewSession) : ApplyOutcome × PreviewSession :=
  let (t,s) := s.request
  match s.settleUnchanged t fs.fingerprint with
  | some outcome => outcome
  | none => s.apply t (s.pipeline.build fs)

def locate (s : PreviewSession) (l : SourceLocation) : SourceLocation :=
  { l with file := (s.registry.pathOf? l.file).getD l.file }

/-- Is this an error of the page that is shown? -/
def accepts (s : PreviewSession) (e : RuntimeError) : Bool :=
  s.document.any fun d => e.version.all (· == d.version)

/-- Keep an error of the page that is shown; tells whether it is one. -/
def recordError (e : RuntimeError) (s : PreviewSession) : Bool × PreviewSession :=
  if s.accepts e then
    let errors := s.runtimeErrors ++ [{ e with location := e.location.map s.locate }]
    (true,{ s with runtimeErrors := errors.drop (errors.length - errorLimit) })
  else (false,s)

def teardown (s : PreviewSession) : Nat × PreviewSession :=
  (s.registry.stats.live,
    { s with
      registry := s.registry.releaseAll
      document := none
      importMap := {}
      fingerprint := none
      runtimeErrors := [] })

end PreviewSession

end PreviewCompiler
