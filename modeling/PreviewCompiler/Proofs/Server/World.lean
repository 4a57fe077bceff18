import PreviewCompiler.Proofs.Files.Snapshot
import PreviewCompiler.Proofs.Preview.Session
import PreviewCompiler.Server.Basic

namespace PreviewCompiler

open Data

/-- How far a pass has come.  From the second phase on it has a snapshot. -/
inductive Phase where
  | begun
  | looked (fs : FileSet)
  /-- No later pass had begun when the pass asked. -/
  | checked (fs : FileSet)
  | examined (fs : FileSet) (found : Finding)
  | finished (fs : FileSet)

/-- A server with its disk and all passes that have begun. -/
structure World where
  server : Server
  disk : Disk
  passes : Ticket → Option (Pass × Phase) := fun _ => none

inductive WorldStep where
  | edit (d : Disk)
  | beginPass
  | advance (t : Ticket)

/-- The outcome of the next step of a pass, if the step ends the pass with one. -/
def Phase.outcome? (p : Pass) (s : PreviewSession) : Phase → Option ApplyOutcome
  | examined _ (.unchanged _ fingerprint) => (s.settleUnchanged p.ticket fingerprint).map (·.1)
  | examined _ (.built result) => some (s.apply p.ticket result).1
  | begun | looked _ | checked _ | examined _ .superseded | finished _ => none

namespace World

def session (w : World) : PreviewSession := w.server.session

/-- A pass is in another phase, and has left another session behind. -/
def put (p : Pass) (phase : Phase) (session : PreviewSession) (w : World) : World :=
  { w with
    server := { w.server with session }
    passes := fun t => if t = p.ticket then some (p,phase) else w.passes t }

/-- The next step of a pass.  One that cannot look at the disk stays where it is. -/
def advance (p : Pass) (phase : Phase) (w : World) : World :=
  match phase with
  | .begun =>
    match FileSet.ofDisk w.server.root w.disk with
    | .ok fs => w.put p (.looked fs) w.session
    | .error _ => w
  | .looked fs => w.put p (if w.session.gate.isLatest p.ticket then .checked fs else .finished fs) w.session
  | .checked fs => w.put p (.examined fs (p.compare w.session.pipeline fs)) w.session
  | .examined fs .superseded => w.put p (.finished fs) w.session
  | .examined fs (.unchanged files fingerprint) =>
    match w.session.settleUnchanged p.ticket fingerprint with
    | some (_,session) => w.put p (.finished fs) session
    | none => w.put p (.examined fs (.built (w.session.pipeline.build files))) w.session
  | .examined fs (.built result) => w.put p (.finished fs) (w.session.apply p.ticket result).2
  | .finished _ => w

def step (w : World) : WorldStep → World
  | .edit d => { w with disk := d }
  | .beginPass =>
    let (p,server) := w.server.beginPass
    w.put p .begun server.session
  | .advance t =>
    match w.passes t with
    | some (p,phase) => w.advance p phase
    | none => w

/-- The world after some steps. -/
def run (w : World) (steps : List WorldStep) : World := steps.foldl step w

/-- A server that has just been started. -/
def start (root : RawText) (space : String) (config : ProjectConfig) (d : Disk) : World :=
  { server := .start root space config, disk := d }

def outcome? (w : World) : WorldStep → Option ApplyOutcome
  | .advance t => (w.passes t).bind fun x => x.2.outcome? x.1 w.session
  | .edit _ | .beginPass => none

/-- What the pages are told in a step. -/
def events (w : World) (a : WorldStep) : List ServerEvent :=
  match w.outcome? a with
  | some o => Server.eventsOf o (w.step a).session
  | none => []

/-- What the pages are told along some steps. -/
def told : World → List WorldStep → List ServerEvent
  | _, [] => []
  | w, a :: steps => w.events a ++ told (w.step a) steps

end World

theorem Server.completePass_of_ofDisk {s : Server} {p : Pass} {d : Disk} {fs : FileSet}
    (h : FileSet.ofDisk s.root d = .ok fs) :
    s.completePass p d = s.finishPass p (p.examine s.session.pipeline s.session.gate fs) := by
  rw [completePass,look,h]
  rfl

namespace World

theorem session_put (p : Pass) (phase : Phase) (s : PreviewSession) (w : World) :
    (w.put p phase s).session = s := rfl

theorem passes_put (p : Pass) (phase : Phase) (s : PreviewSession) (w : World) :
    (w.put p phase s).passes p.ticket = some (p,phase) := if_pos rfl

theorem step_advance {w : World} {p : Pass} {phase : Phase} (h : w.passes p.ticket = some (p,phase)) :
    w.step (.advance p.ticket) = w.advance p phase := by
  simp only [step,h]

theorem step_begun {w : World} {p : Pass} {fs : FileSet} (h : w.passes p.ticket = some (p,.begun))
    (hfs : FileSet.ofDisk w.server.root w.disk = .ok fs) :
    w.step (.advance p.ticket) = w.put p (.looked fs) w.session := by
  rw [step_advance h]
  simp only [advance,hfs]

theorem step_put (p : Pass) (phase : Phase) (s : PreviewSession) (w : World) :
    (w.put p phase s).step (.advance p.ticket) = (w.put p phase s).advance p phase :=
  step_advance (w.passes_put p phase s)

theorem step_finished (p : Pass) (fs : FileSet) (s : PreviewSession) (w : World) :
    (w.put p (.finished fs) s).step (.advance p.ticket) = w.put p (.finished fs) s := step_put ..

variable {w : World} {p : Pass}

theorem outcome?_advance {phase : Phase} (h : w.passes p.ticket = some (p,phase)) :
    w.outcome? (.advance p.ticket) = phase.outcome? p w.session := by
  rw [outcome?,h]
  rfl

theorem outcome?_put (p : Pass) (phase : Phase) (s : PreviewSession) (w : World) :
    (w.put p phase s).outcome? (.advance p.ticket) = phase.outcome? p s :=
  outcome?_advance (w.passes_put p phase s)

theorem events_of_outcome {a : WorldStep} {o : ApplyOutcome} (h : w.outcome? a = some o) :
    w.events a = Server.eventsOf o (w.step a).session := by
  simp only [events,h]

theorem events_of_no_outcome {a : WorldStep} (h : w.outcome? a = none) : w.events a = [] := by
  simp only [events,h]

/-- Have some steps done to a world what a server does in the end of a pass? -/
structure Completes (p : Pass) (done : List ServerEvent × Server) (w : World) (steps : List WorldStep) : Prop where
  server : (w.run steps).server = done.2
  told : w.told steps = done.1
  finished : ∃ fs, (w.run steps).passes p.ticket = some (p,.finished fs)

theorem Completes.cons {done : List ServerEvent × Server} {a : WorldStep} {steps : List WorldStep}
    (h : (w.step a).Completes p done steps) (ha : w.outcome? a = none) : w.Completes p done (a :: steps) where
  server := h.server
  told := by
    rw [World.told,events_of_no_outcome ha]
    exact h.told
  finished := h.finished

theorem Completes.of_first {server : Server} {a : WorldStep} {steps : List WorldStep}
    (h : (w.step a).Completes p ([],server) steps) : w.Completes p (w.events a,server) (a :: steps) where
  server := h.server
  told := by
    rw [World.told,h.told]
    exact List.append_nil _
  finished := h.finished

theorem completes_finished (p : Pass) (fs : FileSet) (s : PreviewSession) (w : World) (n : Nat) :
    (w.put p (.finished fs) s).Completes p ([],{ w.server with session := s })
      (List.replicate n (.advance p.ticket)) := by
  induction n with
  | zero => exact ⟨rfl,rfl,fs,w.passes_put p (.finished fs) s⟩
  | succ n ih =>
    refine Completes.cons ?_ (outcome?_put ..)
    rw [step_finished]
    exact ih

theorem completes_built (p : Pass) (fs : FileSet) (result : Except CompileError PreviewBuild) (w : World) (n : Nat) :
    (w.put p (.examined fs (.built result)) w.session).Completes p (w.server.applyResult p.ticket result)
      (List.replicate (n + 1) (.advance p.ticket)) := by
  have hstep : (w.put p (.examined fs (.built result)) w.session).step (.advance p.ticket) =
      (w.put p (.examined fs (.built result)) w.session).put p (.finished fs) (w.session.apply p.ticket result).2 :=
    step_put ..
  have hevents := events_of_outcome (outcome?_put p (.examined fs (.built result)) w.session w)
  have hrest := completes_finished p fs (w.session.apply p.ticket result).2
    (w.put p (.examined fs (.built result)) w.session) n
  rw [hstep] at hevents
  have hall := Completes.of_first (hstep ▸ hrest)
  rw [hevents] at hall
  exact hall

/-- Settling a snapshot ends a pass, and nobody is told. -/
theorem completes_settled {fs files : FileSet} {fingerprint : String} {o : ApplyOutcome} {s : PreviewSession}
    (h : w.session.settleUnchanged p.ticket fingerprint = some (o,s)) (n : Nat) :
    (w.put p (.examined fs (.unchanged files fingerprint)) w.session).Completes p
      ([],{ w.server with session := s }) (List.replicate (n + 1) (.advance p.ticket)) := by
  have hstep := step_put p (.examined fs (.unchanged files fingerprint)) w.session w
  simp only [advance,session_put,h] at hstep
  have houtcome := outcome?_put p (.examined fs (.unchanged files fingerprint)) w.session w
  rw [Phase.outcome?,h] at houtcome
  have hrest := completes_finished p fs s (w.put p (.examined fs (.unchanged files fingerprint)) w.session) n
  have hall := Completes.of_first (hstep ▸ hrest)
  rw [events_of_outcome houtcome] at hall
  obtain ⟨-,⟨-,rfl,-⟩ | ⟨gate,-,rfl,-⟩⟩ := PreviewSession.settleUnchanged_cases h
  · exact hall
  · exact hall

/-- Two steps end a pass that has examined its snapshot, also if it has to build it after all. -/
theorem completes_examined (p : Pass) (fs : FileSet) (found : Finding) (w : World) :
    (w.put p (.examined fs found) w.session).Completes p (w.server.finishPass p found)
      (List.replicate 2 (.advance p.ticket)) := by
  cases found with
  | superseded =>
    refine Completes.cons ?_ (outcome?_put ..)
    rw [step_put]
    exact completes_finished p fs w.session (w.put p (.examined fs .superseded) w.session) 1
  | built result => exact completes_built p fs result w 1
  | unchanged files fingerprint =>
    cases hsettle : w.session.settleUnchanged p.ticket fingerprint with
    | none =>
      have houtcome := outcome?_put p (.examined fs (.unchanged files fingerprint)) w.session w
      rw [Phase.outcome?,hsettle] at houtcome
      refine Completes.cons ?_ houtcome
      rw [step_put,Server.finishPass,show w.server.session.settleUnchanged _ _ = none from hsettle]
      simp only [advance,session_put,hsettle]
      exact completes_built p fs (w.session.pipeline.build files)
        (w.put p (.examined fs (.unchanged files fingerprint)) w.session) 0
    | some x =>
      rw [Server.finishPass,show w.server.session.settleUnchanged _ _ = some (x.1,x.2) from hsettle]
      exact completes_settled hsettle 1

/-- When nothing comes in between, the steps of a pass are the pass as a whole. -/
theorem completes_of_undisturbed {fs : FileSet} (h : w.passes p.ticket = some (p,.begun))
    (hfs : FileSet.ofDisk w.server.root w.disk = .ok fs) :
    w.Completes p (w.server.completePass p w.disk) (List.replicate 5 (.advance p.ticket)) := by
  have hcomplete : w.server.completePass p w.disk =
      w.server.finishPass p (p.examine w.session.pipeline w.session.gate fs) := Server.completePass_of_ofDisk hfs
  rw [hcomplete]
  refine Completes.cons ?_ (outcome?_advance h)
  rw [step_begun h hfs]
  refine Completes.cons ?_ (outcome?_put ..)
  rw [step_put,advance,session_put,Pass.examine]
  cases hlatest : w.session.gate.isLatest p.ticket with
  | false =>
    rw [if_neg Bool.false_ne_true]
    exact completes_finished p fs w.session (w.put p (.looked fs) w.session) 3
  | true =>
    refine Completes.cons ?_ (outcome?_put ..)
    rw [if_pos rfl,step_put]
    exact completes_examined p fs _ ((w.put p (.looked fs) w.session).put p (.checked fs) w.session)

end World

end PreviewCompiler
