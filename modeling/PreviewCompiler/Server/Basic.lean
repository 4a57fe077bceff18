import PreviewCompiler.Preview.Session
import PreviewCompiler.Project
import PreviewCompiler.Server.Event

namespace PreviewCompiler

/-- The session of a project on a disk.  Passes overlap: one takes its ticket, later looks at the disk, and
later still leaves its result. -/
structure Server where
  root : RawText
  session : PreviewSession
  deriving DecidableEq, Repr

structure Pass where
  ticket : Ticket
  /-- The fingerprint of the snapshot that was shown then. -/
  rendered : Option String
  deriving DecidableEq, Repr

/-- What a pass has found on the disk. -/
inductive Finding where
  /-- A later pass has begun, so this one has nothing to do. -/
  | superseded
  /-- The snapshot is the one that was shown when the pass began. -/
  | unchanged (files : FileSet) (fingerprint : String)
  | built (result : Except CompileError PreviewBuild)

/-- What a watcher tells of files on the disk. -/
structure FileEvent where
  /-- Were the files only looked at? -/
  isAccess : Bool := false
  paths : List RawText
  deriving DecidableEq, Repr

namespace Pass

/-- Build a snapshot, unless it was shown when the pass began. -/
def compare (pipeline : Pipeline) (fs : FileSet) (p : Pass) : Finding :=
  if p.rendered = some fs.fingerprint then .unchanged fs fs.fingerprint else .built (pipeline.build fs)

/-- Build a snapshot, unless that is in vain. -/
def examine (pipeline : Pipeline) (gate : Gate) (fs : FileSet) (p : Pass) : Finding :=
  if !gate.isLatest p.ticket then .superseded else p.compare pipeline fs

end Pass

namespace Server

def start (root : RawText) (space : String) (config : ProjectConfig) : Server :=
  { root, session := .empty (Pipeline.ofConfig config) space }

def beginPass (s : Server) : Pass × Server :=
  let (ticket,session) := s.session.request
  ({ ticket, rendered := s.session.fingerprint },{ s with session })

def look (p : Pass) (d : Disk) (s : Server) : Except ProjectFault Finding :=
  (p.examine s.session.pipeline s.session.gate ·) <$> FileSet.ofDisk s.root d

/-- What the pages are told of an outcome. -/
def eventsOf (outcome : ApplyOutcome) (session : PreviewSession) : List ServerEvent :=
  match outcome with
  | .applied _ => (session.document.map fun d => ServerEvent.document d.version d.entry).toList
  | .failed e => [.compileError e]
  | .unchanged | .stale => []

def applyResult (t : Ticket) (result : Except CompileError PreviewBuild) (s : Server) :
    List ServerEvent × Server :=
  let (outcome,session) := s.session.apply t result
  (eventsOf outcome session,{ s with session })

/-- End a pass.  If the snapshot was shown when the pass began and is not any more, it has to be built
after all. -/
def finishPass (p : Pass) (found : Finding) (s : Server) : List ServerEvent × Server :=
  match found with
  | .superseded => ([],s)
  | .built result => s.applyResult p.ticket result
  | .unchanged files fingerprint =>
    match s.session.settleUnchanged p.ticket fingerprint with
    | some (_,session) => ([],{ s with session })
    | none => s.applyResult p.ticket (s.session.pipeline.build files)

/-- Look at the disk and end a pass; without a snapshot nothing happens. -/
def completePass (p : Pass) (d : Disk) (s : Server) : List ServerEvent × Server :=
  match s.look p d with
  | .ok found => s.finishPass p found
  | .error _ => ([],s)

def recompile (d : Disk) (s : Server) : List ServerEvent × Server :=
  let (p,s) := s.beginPass
  s.completePass p d

/-- What happens on changes that come together: they lead to one pass. -/
def handleChanges {α : Type} (changes : List (List α)) (d : Disk) (s : Server) : List ServerEvent × Server :=
  if changes.isEmpty then ([],s) else s.recompile d

/-- The changes in an event that matter for the snapshot; there are none in one that only looks at files. -/
def changesIn? (s : Server) (e : FileEvent) : Option (List RawText) :=
  let relevant := e.paths.filter (!Disk.ignoresChange s.root ·)
  if e.isAccess || relevant.isEmpty then none else some relevant

def watch (events : List FileEvent) (d : Disk) (s : Server) : List ServerEvent × Server :=
  s.handleChanges (events.filterMap s.changesIn?) d

/-- The events that bring a new page up to date. -/
def currentEvents (s : Server) : List ServerEvent :=
  (s.session.document.map fun d => ServerEvent.document d.version d.entry).toList
    ++ (s.session.lastError.map ServerEvent.compileError).toList

/-- Take a message from a page; what cannot be read is passed over. -/
def receive (text : String) (s : Server) : List ServerEvent × Server :=
  match PageMessage.parse text with
  | .error _ => ([],s)
  | .ok (.runtimeError e) =>
    let (isKept,session) := s.session.recordError e
    ((if isKept then session.runtimeErrors.getLast?.map ServerEvent.runtimeError else none).toList,
      { s with session })

def teardown (s : Server) : Nat × Server :=
  let (n,session) := s.session.teardown
  (n,{ s with session })

end Server

end PreviewCompiler
