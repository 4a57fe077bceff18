import PreviewCompiler.Preview.Session
import PreviewCompiler.Proofs.Preview.ImportMap
import PreviewCompiler.Proofs.Registry.UpToDate

namespace PreviewCompiler

open Data

/-- What the owner of a session can ask of it; the results that are applied are those of its own pipeline. -/
inductive SessionCall where
  | request
  | recompile (fs : FileSet)
  | apply (t : Ticket) (fs : FileSet)
  | settleUnchanged (t : Ticket) (fingerprint : String)
  | recordError (e : RuntimeError)
  | teardown
  deriving DecidableEq, Repr

namespace SessionCall

/-- Are the files of a snapshot in the order of their paths, one a path? -/
def IsOrdered : SessionCall → Prop
  | recompile fs | apply _ fs => OrderedMap.IsOrdered fs
  | request | settleUnchanged .. | recordError _ | teardown => True

/-- The modules that are staged for a call. -/
def staged (p : Pipeline) : SessionCall → List StagedModule
  | recompile fs | apply _ fs => ((p.build fs).toOption.map (·.staged)).getD []
  | request | settleUnchanged .. | recordError _ | teardown => []

end SessionCall

namespace Pipeline

variable {p : Pipeline} {fs : FileSet} {b : PreviewBuild}

theorem of_build (h : p.build fs = .ok b) : fs.stage p.redirects p.transform = .ok b.staged ∧
    b.fingerprint = fs.fingerprint ∧ b.entry ∈ b.staged.paths := by
  obtain ⟨staged,hstaged,hrest⟩ := bind_eq_ok h
  obtain ⟨styles,-,hret⟩ := bind_eq_ok hrest
  split at hret
  · rename_i entry hentry
    obtain rfl := Except.ok.inj hret
    exact ⟨hstaged,rfl,List.contains_iff_mem.1 (List.find?_some hentry)⟩
  · contradiction

theorem isStaged_of_build (ho : OrderedMap.IsOrdered fs) (h : p.build fs = .ok b) : b.staged.IsStaged :=
  ⟨fs,p.redirects,p.transform,ho,(of_build h).1⟩

end Pipeline

namespace SessionCall

variable {p : Pipeline} {fs : FileSet} {b : PreviewBuild}

theorem staged_apply (h : p.build fs = .ok b) (t : Ticket) : (apply t fs).staged p = b.staged := by
  simp only [staged,h]
  rfl

theorem eq_ofTemplate_of_staged {c : SessionCall} {m : StagedModule} (hc : c.IsOrdered) (hm : m ∈ c.staged p) :
    m = .ofTemplate m.template := by
  have hbuild : ∀ fs : FileSet, OrderedMap.IsOrdered fs →
      m ∈ ((p.build fs).toOption.map (·.staged)).getD [] → m = .ofTemplate m.template := by
    intro fs ho hm
    cases hb : p.build fs with
    | error e =>
      rw [hb] at hm
      contradiction
    | ok b =>
      rw [hb] at hm
      exact (Pipeline.isStaged_of_build ho hb).eq_ofTemplate hm
  cases c with
  | recompile fs => exact hbuild fs hc hm
  | apply t fs => exact hbuild fs hc hm
  | request | settleUnchanged | recordError | teardown => contradiction

end SessionCall

namespace PreviewSession

def call (s : PreviewSession) : SessionCall → PreviewSession
  | .request => s.request.2
  | .recompile fs => (s.recompile fs).2
  | .apply t fs => (s.apply t (s.pipeline.build fs)).2
  | .settleUnchanged t fingerprint => ((s.settleUnchanged t fingerprint).map (·.2)).getD s
  | .recordError e => (s.recordError e).2
  | .teardown => s.teardown.2

/-- The session after some calls. -/
def run (s : PreviewSession) (calls : List SessionCall) : PreviewSession := calls.foldl call s

/-- The ticket and the build of a pass that has been applied. -/
def shownOf (t : Ticket) : (result : Except CompileError PreviewBuild) → ApplyOutcome →
    Option (Ticket × PreviewBuild)
  | .ok b, .applied _ => some (t,b)
  | _, _ => none

/-- What a call has put in the place of what was shown. -/
def shownBy (s : PreviewSession) : SessionCall → Option (Ticket × PreviewBuild)
  | .recompile fs => shownOf s.request.1 (s.pipeline.build fs) (s.recompile fs).1
  | .apply t fs => shownOf t (s.pipeline.build fs) (s.apply t (s.pipeline.build fs)).1
  | .request | .settleUnchanged .. | .recordError _ | .teardown => none

/-- The last build that has been applied along some calls. -/
def lastShown : PreviewSession → List SessionCall → Option (Ticket × PreviewBuild)
  | _, [] => none
  | s, c :: cs => (lastShown (s.call c) cs).or (s.shownBy c)

theorem lastShown_append_singleton (s : PreviewSession) (cs : List SessionCall) (c : SessionCall) :
    s.lastShown (cs ++ [c]) = ((s.run cs).shownBy c).or (s.lastShown cs) := by
  induction cs generalizing s with
  | nil => exact Option.or_none.symm
  | cons c' cs ih =>
    rw [List.cons_append,lastShown,ih,Option.or_assoc]
    rfl

/-- How the parts of a session belong together.  `shown` is the last build that has been applied, and `seen` are
all modules that have been staged. -/
structure Consistent (p : Pipeline) (seen : List StagedModule) (shown : Option (Ticket × PreviewBuild))
    (s : PreviewSession) : Prop where
  pipeline : s.pipeline = p
  templates : ∀ m ∈ seen, m = .ofTemplate m.template
  sound : s.registry.Sound
  /-- That all imports are registered rests on the hashes by which unchanged modules are known. -/
  linked : (∀ m ∈ seen, m.Fits) → Registry.NoCollision seen → s.registry.UpToDate seen ∧ s.registry.IsClosed
  /-- Without a document there are no modules. -/
  idle : s.document = none → s.registry.modules = []
  shows : ∀ d, s.document = some d → s.importMap = ImportMap.build s.registry p.redirects ∧
    ∃ t b, shown = some (t,b) ∧
      PreviewDocument.assemble s.importMap b.styles [b.entry] p.document t = .ok d

variable {s s' : PreviewSession} {seen : List StagedModule} {shown : Option (Ticket × PreviewBuild)}
  {p : Pipeline}

theorem consistent_empty (p : Pipeline) (space : String) : Consistent p [] none (empty p space) where
  pipeline := rfl
  templates := fun _ hm => absurd hm List.not_mem_nil
  sound := Registry.sound_empty space
  linked := fun _ _ => ⟨Registry.upToDate_empty space,fun _ _ h => by contradiction⟩
  idle := fun _ => rfl
  shows := fun _ h => by contradiction

/-- Do two sessions show the same, whatever their gates, errors and fingerprints are? -/
structure SameView (s s' : PreviewSession) : Prop where
  pipeline : s'.pipeline = s.pipeline
  registry : s'.registry = s.registry
  document : s'.document = s.document
  importMap : s'.importMap = s.importMap

theorem Consistent.congr (h : Consistent p seen shown s) (hv : SameView s s') : Consistent p seen shown s' where
  pipeline := hv.pipeline.trans h.pipeline
  templates := h.templates
  sound := hv.registry ▸ h.sound
  linked := hv.registry ▸ h.linked
  idle := fun hnone => hv.registry ▸ h.idle (hv.document ▸ hnone)
  shows := by
    rw [hv.registry,hv.document,hv.importMap]
    exact h.shows

/-- The entry of a build is registered after the commit, so there is a document. -/
theorem exists_assemble {r : Registry} {b : PreviewBuild} (h : r.Sound) (hs : b.staged.IsStaged)
    (hentry : b.entry ∈ b.staged.paths) (redirects : Redirects) (options : DocumentOptions) (t : Ticket) :
    ∃ d, PreviewDocument.assemble (ImportMap.build (r.commit b.staged).1 redirects) b.styles [b.entry]
      options t = .ok d := by
  have hreg := (Registry.contains_commit h hs.nodup_paths).2 hentry
  have hkey := ImportMap.contains_build hreg redirects
  exact ⟨_,by simp only [PreviewDocument.assemble,PreviewDocument.selectEntry,List.find?,hkey]; rfl⟩

theorem version_of_assemble {m : ImportMap} {styles : String} {candidates : List String} {options : DocumentOptions}
    {t : Ticket} {d : PreviewDocument} (h : PreviewDocument.assemble m styles candidates options t = .ok d) :
    d.version = t := by
  obtain ⟨entry,-,hd⟩ := bind_eq_ok h
  obtain rfl := Except.ok.inj hd
  rfl

theorem replace_eq {t : Ticket} {b : PreviewBuild} {d : PreviewDocument}
    (h : PreviewDocument.assemble (ImportMap.build (s.registry.commit b.staged).1 s.pipeline.redirects)
      b.styles [b.entry] s.pipeline.document t = .ok d) :
    s.replace t b = (.applied (s.registry.commit b.staged).2,
      { s with
        registry := (s.registry.commit b.staged).1
        importMap := ImportMap.build (s.registry.commit b.staged).1 s.pipeline.redirects
        document := some d
        fingerprint := some b.fingerprint
        lastError := none
        runtimeErrors := [] }) := by
  simp only [replace,h]

/-- What holds of all that has been staged holds of what had been staged before. -/
theorem Consistent.linked_before {extra : List StagedModule} (h : Consistent p seen shown s)
    (hfit : ∀ m ∈ seen ++ extra, m.Fits) (hinj : Registry.NoCollision (seen ++ extra)) :
    s.registry.UpToDate seen ∧ s.registry.IsClosed :=
  h.linked (fun m hm => hfit m (List.mem_append_left _ hm)) (hinj.subset fun _ hm => List.mem_append_left _ hm)

theorem Consistent.replace {b : PreviewBuild} (h : Consistent p seen shown s) (hs : b.staged.IsStaged)
    (hentry : b.entry ∈ b.staged.paths) (t : Ticket) :
    (s.replace t b).1 = .applied (s.registry.commit b.staged).2 ∧
    Consistent p (seen ++ b.staged) (some (t,b)) (s.replace t b).2 := by
  obtain rfl := h.pipeline
  obtain ⟨d,hd⟩ := exists_assemble h.sound hs hentry s.pipeline.redirects s.pipeline.document t
  rw [replace_eq hd]
  refine ⟨rfl,rfl,?_,h.sound.commit hs.nodup_paths,?_,fun hnone => by contradiction,?_⟩
  · intro m hm
    exact (List.mem_append.1 hm).elim (h.templates m) hs.eq_ofTemplate
  · intro hfit hinj
    obtain ⟨hup,-⟩ := h.linked_before hfit hinj
    exact ⟨hup.commit h.sound hs h.templates hfit hinj,hup.isClosed_commit h.sound hs h.templates hfit hinj⟩
  · intro d' hd'
    obtain rfl : d = d' := Option.some.inj hd'
    exact ⟨rfl,t,b,rfl,hd⟩

section

variable {t : Ticket} {gate : Gate} {b : PreviewBuild}

theorem tryCommit_eq_none_iff : s.gate.tryCommit t = none ↔ t ≤ s.gate.committed := by
  rw [Gate.tryCommit,ite_eq_right_iff,← Nat.not_lt]
  exact ⟨fun h hlt => by simpa using h hlt,fun h hlt => absurd hlt h⟩

theorem tryCommit_eq_some (h : s.gate.committed < t) :
    s.gate.tryCommit t = some { s.gate with committed := t } := if_pos h

theorem apply_of_late (h : s.gate.tryCommit t = none) (result : Except CompileError PreviewBuild) :
    s.apply t result = (.stale,s) := by
  simp only [apply,h]

theorem apply_error (h : s.gate.tryCommit t = some gate) (e : CompileError) :
    s.apply t (.error e) = (.failed e,{ s with gate, lastError := some e }) := by
  simp only [apply,h]

theorem apply_of_isCurrent (h : s.gate.tryCommit t = some gate) (hc : s.isCurrent b.fingerprint = true) :
    s.apply t (.ok b) = (.unchanged,{ s with gate, lastError := none }) := by
  simp only [apply,h]
  exact if_pos hc

theorem apply_of_not_isCurrent (h : s.gate.tryCommit t = some gate) (hc : s.isCurrent b.fingerprint = false) :
    s.apply t (.ok b) = replace t b { s with gate } := by
  simp only [apply,h]
  exact if_neg (Bool.eq_false_iff.1 hc)

end

/-- Has a pass left its result, before any later one? -/
def InTime (t : Ticket) (s s' : PreviewSession) : Prop :=
  s.gate.committed < t ∧ s'.gate = { s.gate with committed := t }

/-- What the outcome of a pass tells of the sessions before and after it. -/
def Tells (t : Ticket) (s s' : PreviewSession) : ApplyOutcome → Prop
  | .stale => t ≤ s.gate.committed ∧ s' = s
  | .failed e => InTime t s s' ∧ s'.document = s.document ∧ s'.lastError = some e
  | .unchanged => InTime t s s' ∧ s'.document = s.document ∧ s'.lastError = none
  | .applied _ => InTime t s s' ∧ (∃ d, s'.document = some d ∧ d.version = t) ∧ s'.lastError = none

theorem apply_tells (s : PreviewSession) (t : Ticket) (result : Except CompileError PreviewBuild) :
    Tells t s (s.apply t result).2 (s.apply t result).1 := by
  cases hg : s.gate.tryCommit t with
  | none =>
    rw [apply_of_late hg]
    exact ⟨tryCommit_eq_none_iff.1 hg,rfl⟩
  | some gate =>
    obtain ⟨hlt,rfl⟩ := Gate.committed_of_tryCommit hg
    cases result with
    | error e =>
      rw [apply_error hg]
      exact ⟨⟨hlt,rfl⟩,rfl,rfl⟩
    | ok b =>
      cases hc : s.isCurrent b.fingerprint with
      | true =>
        rw [apply_of_isCurrent hg hc]
        exact ⟨⟨hlt,rfl⟩,rfl,rfl⟩
      | false =>
        rw [apply_of_not_isCurrent hg hc]
        cases hd : PreviewDocument.assemble (ImportMap.build (s.registry.commit b.staged).1 s.pipeline.redirects)
            b.styles [b.entry] s.pipeline.document t with
        | error e =>
          simp only [replace,hd]
          exact ⟨⟨hlt,rfl⟩,rfl,rfl⟩
        | ok d =>
          rw [replace_eq (s := { s with gate := { s.gate with committed := t } }) hd]
          exact ⟨⟨hlt,rfl⟩,⟨d,rfl,version_of_assemble hd⟩,rfl⟩

/-- A result is either put in the place of what is shown, or nothing of that changes. -/
theorem apply_cases (s : PreviewSession) (t : Ticket) (result : Except CompileError PreviewBuild) :
    (∃ gate b, result = .ok b ∧ s.apply t result = replace t b { s with gate }) ∨
    ((∀ summary, (s.apply t result).1 ≠ .applied summary) ∧ SameView s (s.apply t result).2) := by
  cases hg : s.gate.tryCommit t with
  | none =>
    rw [apply_of_late hg]
    exact .inr ⟨fun _ h => by contradiction,rfl,rfl,rfl,rfl⟩
  | some gate =>
    cases result with
    | error e =>
      rw [apply_error hg]
      exact .inr ⟨fun _ h => by contradiction,rfl,rfl,rfl,rfl⟩
    | ok b =>
      cases hc : s.isCurrent b.fingerprint with
      | true =>
        rw [apply_of_isCurrent hg hc]
        exact .inr ⟨fun _ h => by contradiction,rfl,rfl,rfl,rfl⟩
      | false => exact .inl ⟨gate,b,rfl,apply_of_not_isCurrent hg hc⟩

theorem Consistent.append {extra : List StagedModule} (h : Consistent p seen shown s)
    (hextra : ∀ m ∈ extra, m = .ofTemplate m.template) : Consistent p (seen ++ extra) shown s :=
  { h with
    templates := fun m hm => (List.mem_append.1 hm).elim (h.templates m) (hextra m)
    linked := fun hfit hinj =>
      (h.linked_before hfit hinj).imp_left fun hup => hup.mono fun _ hm => List.mem_append_left _ hm }

/-- Nothing more is shown than before, whatever has been staged for a call. -/
theorem Consistent.append_staged {c : SessionCall} (h : Consistent p seen shown s) (hc : c.IsOrdered) :
    Consistent p (seen ++ c.staged p) shown s :=
  h.append fun _ hm => SessionCall.eq_ofTemplate_of_staged hc hm

/-- What an apply in time does: the ticket is the latest one, and the snapshot is shown unless its build fails. -/
theorem apply_build_of_lt {t : Ticket} {fs : FileSet} (ho : OrderedMap.IsOrdered fs) (hs : s.registry.Sound)
    (ht : s.gate.committed < t) :
    let s' := (s.apply t (s.pipeline.build fs)).2
    s'.pipeline = s.pipeline ∧ s'.gate = { s.gate with committed := t } ∧ s'.registry.Sound ∧
    (s'.fingerprint = some fs.fingerprint ∧ s'.lastError = none ∨
      ∃ e, s.pipeline.build fs = .error e ∧ s'.lastError = some e) := by
  have hg := tryCommit_eq_some ht
  cases hb : s.pipeline.build fs with
  | error e =>
    rw [apply_error hg]
    exact ⟨rfl,rfl,hs,.inr ⟨e,rfl,rfl⟩⟩
  | ok b =>
    obtain ⟨-,hfp,hentry⟩ := Pipeline.of_build hb
    have hstaged := Pipeline.isStaged_of_build ho hb
    cases hc : s.isCurrent b.fingerprint with
    | true =>
      rw [apply_of_isCurrent hg hc]
      exact ⟨rfl,rfl,hs,.inl ⟨by simpa [isCurrent,hfp] using hc,rfl⟩⟩
    | false =>
      obtain ⟨d,hd⟩ := exists_assemble hs hstaged hentry s.pipeline.redirects s.pipeline.document t
      rw [(apply_of_not_isCurrent hg hc).trans (replace_eq hd)]
      exact ⟨rfl,rfl,hs.commit hstaged.nodup_paths,.inl ⟨congrArg some hfp,rfl⟩⟩

theorem shownOf_eq_none {t : Ticket} {result : Except CompileError PreviewBuild} {o : ApplyOutcome}
    (h : ∀ summary, o ≠ .applied summary) : shownOf t result o = none := by
  unfold shownOf
  split
  · exact absurd rfl (h _)
  · rfl

/-- Applying the result of a build, whatever the ticket. -/
theorem Consistent.apply {fs : FileSet} (h : Consistent p seen shown s) (ho : OrderedMap.IsOrdered fs)
    (t : Ticket) :
    Consistent p (seen ++ (SessionCall.apply t fs).staged p)
      ((s.shownBy (.apply t fs)).or shown) (s.call (.apply t fs)) := by
  obtain rfl := h.pipeline
  rw [shownBy,call]
  rcases apply_cases s t (s.pipeline.build fs) with ⟨gate,b,hb,happly⟩ | ⟨hout,hview⟩
  · have hgate : Consistent s.pipeline seen shown { s with gate } := h.congr ⟨rfl,rfl,rfl,rfl⟩
    obtain ⟨-,-,hentry⟩ := Pipeline.of_build hb
    obtain ⟨hout,hnew⟩ := hgate.replace (Pipeline.isStaged_of_build ho hb) hentry t
    rw [SessionCall.staged_apply hb,happly,hb,hout]
    exact hnew
  · rw [shownOf_eq_none hout,Option.none_or]
    exact (h.append_staged (c := .apply t fs) ho).congr hview

/-- How a session settles a pass: its snapshot is the one that is shown, and the pass is too late, or there is no error
any more. -/
theorem settleUnchanged_cases {t : Ticket} {fingerprint : String} {o : ApplyOutcome}
    (h : s.settleUnchanged t fingerprint = some (o,s')) :
    s.isCurrent fingerprint = true ∧
    (s.gate.tryCommit t = none ∧ o = .stale ∧ s' = s ∨
      ∃ gate, s.gate.tryCommit t = some gate ∧ o = .unchanged ∧ s' = { s with gate, lastError := none }) := by
  unfold settleUnchanged at h
  split at h
  · rename_i hc
    refine ⟨hc,?_⟩
    split at h
    · rename_i hg
      obtain ⟨rfl,rfl⟩ := Prod.mk.inj (Option.some.inj h)
      exact .inl ⟨hg,rfl,rfl⟩
    · rename_i gate hg
      obtain ⟨rfl,rfl⟩ := Prod.mk.inj (Option.some.inj h)
      exact .inr ⟨gate,hg,rfl,rfl⟩
  · contradiction

theorem settleUnchanged_tells {t : Ticket} {fingerprint : String} {o : ApplyOutcome}
    (h : s.settleUnchanged t fingerprint = some (o,s')) : Tells t s s' o := by
  obtain ⟨-,⟨hg,rfl,rfl⟩ | ⟨gate,hg,rfl,rfl⟩⟩ := settleUnchanged_cases h
  · exact ⟨tryCommit_eq_none_iff.1 hg,rfl⟩
  · obtain ⟨hlt,rfl⟩ := Gate.committed_of_tryCommit hg
    exact ⟨⟨hlt,rfl⟩,rfl,rfl⟩

/-- A session settles a pass without showing anything new. -/
theorem sameView_settleUnchanged {t : Ticket} {fingerprint : String} {o : ApplyOutcome}
    (h : s.settleUnchanged t fingerprint = some (o,s')) :
    (∀ summary, o ≠ .applied summary) ∧ SameView s s' := by
  obtain ⟨-,⟨-,rfl,rfl⟩ | ⟨gate,-,rfl,rfl⟩⟩ := settleUnchanged_cases h
  · exact ⟨fun _ h => by contradiction,rfl,rfl,rfl,rfl⟩
  · exact ⟨fun _ h => by contradiction,rfl,rfl,rfl,rfl⟩

theorem recompile_of_settled {fs : FileSet} {result : ApplyOutcome × PreviewSession}
    (h : s.request.2.settleUnchanged s.request.1 fs.fingerprint = some result) : s.recompile fs = result := by
  simp only [PreviewSession.recompile,h]

theorem recompile_of_not_settled {fs : FileSet}
    (h : s.request.2.settleUnchanged s.request.1 fs.fingerprint = none) :
    s.recompile fs = s.request.2.apply s.request.1 (s.pipeline.build fs) := by
  simp only [PreviewSession.recompile,h]
  rfl

theorem sameView_recordError (e : RuntimeError) (s : PreviewSession) : SameView s (s.recordError e).2 := by
  unfold recordError
  split
  · exact ⟨rfl,rfl,rfl,rfl⟩
  · exact ⟨rfl,rfl,rfl,rfl⟩

theorem Consistent.teardown (h : Consistent p seen shown s) : Consistent p seen shown s.teardown.2 where
  pipeline := h.pipeline
  templates := h.templates
  sound := h.sound.releaseAll
  linked := fun _ _ => ⟨fun _ _ hm => by contradiction,fun _ _ hm => by contradiction⟩
  idle := fun _ => rfl
  shows := fun _ hd => by contradiction

theorem Consistent.recompile {fs : FileSet} (h : Consistent p seen shown s) (ho : OrderedMap.IsOrdered fs) :
    Consistent p (seen ++ (SessionCall.recompile fs).staged p)
      ((s.shownBy (.recompile fs)).or shown) (s.call (.recompile fs)) := by
  obtain rfl := h.pipeline
  have hrequest : Consistent s.pipeline seen shown s.request.2 := h.congr ⟨rfl,rfl,rfl,rfl⟩
  cases hsettle : s.request.2.settleUnchanged s.request.1 fs.fingerprint with
  | none =>
    rw [shownBy,call,recompile_of_not_settled hsettle]
    exact hrequest.apply ho s.request.1
  | some result =>
    obtain ⟨hout,hview⟩ := sameView_settleUnchanged (show _ = some (result.1,result.2) from hsettle)
    rw [shownBy,call,recompile_of_settled hsettle,shownOf_eq_none hout,Option.none_or]
    exact (hrequest.append_staged (c := .recompile fs) ho).congr hview

theorem Consistent.call {c : SessionCall} (h : Consistent p seen shown s) (hc : c.IsOrdered) :
    Consistent p (seen ++ c.staged p) ((s.shownBy c).or shown) (s.call c) := by
  have hkeep : Consistent p (seen ++ c.staged p) shown s := h.append_staged hc
  cases c with
  | request => exact hkeep.congr ⟨rfl,rfl,rfl,rfl⟩
  | recompile fs => exact h.recompile hc
  | apply t fs => exact h.apply hc t
  | settleUnchanged t fingerprint =>
    cases hsettle : s.settleUnchanged t fingerprint with
    | none =>
      simp only [PreviewSession.call,hsettle]
      exact hkeep
    | some result =>
      simp only [PreviewSession.call,hsettle]
      exact hkeep.congr (sameView_settleUnchanged (show _ = some (result.1,result.2) from hsettle)).2
  | recordError e => exact hkeep.congr (sameView_recordError e s)
  | teardown => exact hkeep.teardown

/-- All modules that are staged along some calls. -/
def stagedAlong (p : Pipeline) (calls : List SessionCall) : List StagedModule := calls.flatMap (·.staged p)

theorem stagedAlong_append_singleton (p : Pipeline) (calls : List SessionCall) (c : SessionCall) :
    stagedAlong p (calls ++ [c]) = stagedAlong p calls ++ c.staged p := by
  simp [stagedAlong]

theorem consistent_run (p : Pipeline) (space : String) {calls : List SessionCall}
    (ho : ∀ c ∈ calls, c.IsOrdered) :
    Consistent p (stagedAlong p calls) ((empty p space).lastShown calls) ((empty p space).run calls) := by
  induction calls using List.reverseRecOn with
  | nil => exact consistent_empty p space
  | append_singleton calls c ih =>
    have hbefore := ih fun c' hc' => ho c' (List.mem_append_left _ hc')
    rw [stagedAlong_append_singleton,lastShown_append_singleton,
      show (empty p space).run (calls ++ [c]) = ((empty p space).run calls).call c from List.foldl_append]
    exact hbefore.call (ho c (List.mem_append_right _ List.mem_cons_self))

/-- As long as a document is shown it is that of the last build that was applied, with the import map of the
registry.  Every entry of the map that is not that of a package leads to the code of a module, and so does all that
the modules import if no hashes collide.  Without a document no reference is live. -/
theorem shown_along_run (p : Pipeline) (space : String) (calls : List SessionCall)
    (ho : ∀ c ∈ calls, c.IsOrdered) :
    let s := (empty p space).run calls
    (s.document = none → s.registry.blobs.live = []) ∧
    ∀ d, s.document = some d →
      s.importMap = ImportMap.build s.registry p.redirects ∧
      (∃ t b, (empty p space).lastShown calls = some (t,b) ∧
        PreviewDocument.assemble s.importMap b.styles [b.entry] p.document t = .ok d) ∧
      (∀ e ∈ s.importMap.imports,
        (∃ m ∈ s.registry.modules, e.1 ∈ ImportMap.keysOf s.registry m.1 ∧ e.2 = m.2.reference.text ∧
          s.registry.dereference e.2 = some m.2.code) ∨
        ∃ q ∈ ImportMap.neededPackages s.registry, e = (q.bare,p.redirects.urlFor q)) ∧
      ((∀ m ∈ stagedAlong p calls, m.Fits) → Registry.NoCollision (stagedAlong p calls) →
        ∀ m ∈ s.registry.modules, ∀ d ∈ m.2.links.modules, ∃ dep, s.registry.module? d = some dep ∧
          s.registry.blobs.isLive dep.reference = true ∧
          s.registry.dereference dep.reference.text = some dep.code) := by
  intro s
  have h : Consistent p _ _ s := consistent_run p space ho
  have hmodule : ∀ m ∈ s.registry.modules, s.registry.module? m.1 = some m.2 := fun m hm =>
    (OrderedMap.find?_eq_some_iff h.sound.ordered).2 hm
  refine ⟨fun hnone => ?_,fun d hd => ?_⟩
  · have hlive := h.sound.live_perm
    rw [Registry.bound,h.idle hnone] at hlive
    exact hlive.eq_nil
  · obtain ⟨hmap,hdoc⟩ := h.shows d hd
    refine ⟨hmap,hdoc,fun e he => ?_,fun hfit hinj m hm dep hdep => ?_⟩
    · rw [hmap] at he
      rcases ImportMap.mem_build he with he | he
      · obtain ⟨m,hm,hkey,haddress⟩ := ImportMap.mem_ownEntries he
        exact .inl ⟨m,hm,hkey,haddress,haddress ▸ h.sound.dereference (hmodule m hm)⟩
      · exact .inr (ImportMap.mem_packageEntries he)
    · obtain ⟨c,hc⟩ := Option.isSome_iff_exists.1 ((h.linked hfit hinj).2 m.1 m.2 (hmodule m hm) dep hdep)
      exact ⟨c,hc,h.sound.isLive hc,h.sound.dereference hc⟩

/-- A pass is late: what the later one has left stays. -/
theorem shown_along_run_of_late_pass :
    let fs : FileSet := [("/App.js",.file "import './b.js'"),("/b.js",.file "import './b.js'")]
    let calls : List SessionCall := [.request,.request,.apply 2 fs,.apply 1 fs]
    let s := (empty {} "preview").run calls
    ∃ d, s.document = some d ∧ s.importMap = ImportMap.build s.registry {} ∧
      ∀ m ∈ s.registry.modules, ∀ d ∈ m.2.links.modules, ∃ dep, s.registry.module? d = some dep ∧
        s.registry.blobs.isLive dep.reference = true ∧
        s.registry.dereference dep.reference.text = some dep.code := by
  intro fs calls
  have ho : OrderedMap.IsOrdered fs := by decide +kernel
  have hcalls : ∀ c ∈ calls, c.IsOrdered := by
    simp only [calls,List.forall_mem_cons]
    exact ⟨trivial,trivial,ho,ho,fun _ hm => absurd hm List.not_mem_nil⟩
  have hfit : ∀ m ∈ (SessionCall.apply 1 fs).staged {}, m.Fits := by decide +kernel
  have hsame : ∀ m ∈ (SessionCall.apply 1 fs).staged {}, ∀ m' ∈ (SessionCall.apply 1 fs).staged {},
      m.hashInput = m'.hashInput := by decide +kernel
  have hinj : Registry.NoCollision ((SessionCall.apply 1 fs).staged {}) := fun m hm m' hm' _ =>
    hsame m hm m' hm'
  have hstaged : ∀ m ∈ stagedAlong {} calls, m ∈ (SessionCall.apply 1 fs).staged {} := by
    intro m hm
    obtain ⟨c,hc,hm⟩ := List.mem_flatMap.1 hm
    simp only [calls,List.mem_cons,List.not_mem_nil,or_false] at hc
    rcases hc with rfl | rfl | rfl | rfl
    · exact absurd hm List.not_mem_nil
    · exact absurd hm List.not_mem_nil
    · exact hm
    · exact hm
  have hdoc : ((empty {} "preview").run calls).document.isSome = true := by decide +kernel
  have h := shown_along_run {} "preview" calls hcalls
  generalize (empty {} "preview").run calls = s at h hdoc ⊢
  obtain ⟨d,hd⟩ := Option.isSome_iff_exists.1 hdoc
  obtain ⟨hmap,-,-,hdeps⟩ := h.2 d hd
  exact ⟨d,hd,hmap,hdeps (fun m hm => hfit m (hstaged m hm)) (hinj.subset hstaged)⟩

end PreviewSession

end PreviewCompiler
