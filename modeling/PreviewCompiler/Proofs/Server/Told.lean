import PreviewCompiler.Proofs.Server.Passes

namespace PreviewCompiler

open Data

/-- An error as a page shows it. -/
structure ShownError where
  code : String
  message : String
  path : Option String
  deriving DecidableEq, Repr

def CompileError.shown (e : CompileError) : ShownError := ⟨e.code,e.message,e.path?⟩

/-- The error of a compilation that a page shows after an event, from the one before. -/
def ServerEvent.show (before : Option ShownError) : ServerEvent → Option ShownError
  | document .. => none
  | compileError e => some e.shown
  | runtimeError _ => before

namespace Server

variable {s : Server}

/-- A pass over a project at the top of a disk.  Following a path does not compute, but this does. -/
def recompileTop (es : List (RawText × DiskNode)) (s : Server) : List ServerEvent × Server :=
  let (p,s) := s.beginPass
  s.finishPass p (p.examine s.session.pipeline s.session.gate (FileSet.ofWalk (Disk.walkEntries [] es)))

theorem recompile_top (h : s.root = "/") (es : List (RawText × DiskNode)) :
    s.recompile { top := .directory es } = s.recompileTop es := by
  refine completePass_of_ofDisk (s := s.beginPass.2) ?_
  change FileSet.ofDisk s.root _ = _
  rw [h]
  exact FileSet.ofDisk_top es

end Server

namespace World

variable {w : World}

/-- The error that a page shows after some steps if it has been told everything. -/
def page (w : World) (steps : List WorldStep) : Option ShownError := (w.told steps).foldl ServerEvent.show none

theorem run_append_singleton (w : World) (steps : List WorldStep) (a : WorldStep) :
    w.run (steps ++ [a]) = (w.run steps).step a := List.foldl_append

theorem told_append (w : World) (steps later : List WorldStep) :
    w.told (steps ++ later) = w.told steps ++ (w.run steps).told later := by
  induction steps generalizing w with
  | nil => rfl
  | cons a steps ih =>
    rw [List.cons_append,told,ih,told,List.append_assoc]
    rfl

theorem told_singleton (w : World) (a : WorldStep) : w.told [a] = w.events a := List.append_nil _

theorem page_append_singleton (w : World) (steps : List WorldStep) (a : WorldStep) :
    w.page (steps ++ [a]) = ((w.run steps).events a).foldl ServerEvent.show (w.page steps) := by
  rw [page,told_append,told_singleton,List.foldl_append,page]

/-- A step that has no outcome leaves the error as it is. -/
theorem step_outcome (w : World) (a : WorldStep) :
    (w.outcome? a = none ∧ (w.step a).session.lastError = w.session.lastError) ∨
    ∃ t o, w.outcome? a = some o ∧ PreviewSession.Tells t w.session (w.step a).session o := by
  cases a with
  | edit d => exact .inl ⟨rfl,rfl⟩
  | beginPass => exact .inl ⟨rfl,rfl⟩
  | advance t =>
    rw [outcome?,step]
    cases hp : w.passes t with
    | none => exact .inl ⟨rfl,rfl⟩
    | some x =>
      obtain ⟨p,phase⟩ := x
      rw [Option.bind_some]
      cases phase with
      | begun =>
        refine .inl ⟨rfl,?_⟩
        simp only [advance]
        split <;> rfl
      | looked fs | checked fs | finished fs => exact .inl ⟨rfl,rfl⟩
      | examined fs found =>
        cases found with
        | superseded => exact .inl ⟨rfl,rfl⟩
        | built result => exact .inr ⟨p.ticket,_,rfl,w.session.apply_tells p.ticket result⟩
        | unchanged files fingerprint =>
          simp only [Phase.outcome?,advance]
          cases hsettle : w.session.settleUnchanged p.ticket fingerprint with
          | none => exact .inl ⟨rfl,rfl⟩
          | some x => exact .inr ⟨p.ticket,x.1,rfl,PreviewSession.settleUnchanged_tells hsettle⟩

/-- Does a step take back the error of the session? -/
def Reverts (w : World) (a : WorldStep) : Prop := w.session.lastError ≠ none ∧ w.outcome? a = some .unchanged

/-- Has an error been taken back, and nothing been told since? -/
def Forgotten (w : World) (steps : List WorldStep) : Prop :=
  ∃ before a after, steps = before ++ a :: after ∧ (w.run before).Reverts a ∧
    ((w.run before).step a).told after = []

theorem forgotten_append_singleton {steps : List WorldStep} {a : WorldStep} :
    w.Forgotten (steps ++ [a]) ↔
      (w.run steps).Reverts a ∨ w.Forgotten steps ∧ (w.run steps).events a = [] := by
  constructor
  · rintro ⟨before,b,after,heq,hreverts,hquiet⟩
    rcases List.eq_nil_or_concat' after with rfl | ⟨after',c,rfl⟩
    · obtain ⟨rfl,hb⟩ := List.append_inj' heq rfl
      obtain rfl := List.singleton_inj.1 hb
      exact .inl hreverts
    · rw [← List.cons_append,← List.append_assoc] at heq
      obtain ⟨rfl,hc⟩ := List.append_inj' heq rfl
      obtain rfl := List.singleton_inj.1 hc
      rw [told_append,told_singleton,List.append_eq_nil_iff] at hquiet
      refine .inr ⟨⟨before,b,after',rfl,hreverts,hquiet.1⟩,?_⟩
      rw [show w.run (before ++ b :: after') = (((w.run before).step b).run after') from List.foldl_append]
      exact hquiet.2
  · rintro (hreverts | ⟨⟨before,b,after,rfl,hreverts,hquiet⟩,ha⟩)
    · exact ⟨steps,a,[],rfl,hreverts,rfl⟩
    · refine ⟨before,b,after ++ [a],by simp,hreverts,?_⟩
      rw [told_append,told_singleton,hquiet]
      rw [show w.run (before ++ b :: after) = (((w.run before).step b).run after) from List.foldl_append] at ha
      exact ha

/-- As long as an error is forgotten, the session has none and the page shows one. -/
structure Agrees (w : World) (steps : List WorldStep) : Prop where
  known : ¬ w.Forgotten steps → w.page steps = (w.run steps).session.lastError.map CompileError.shown
  forgotten : w.Forgotten steps → (w.run steps).session.lastError = none ∧ w.page steps ≠ none

theorem agrees_nil (h : w.session.lastError = none) : w.Agrees [] where
  known _ := by
    change none = w.session.lastError.map CompileError.shown
    rw [h]
    rfl
  forgotten := fun ⟨_,_,_,heq,_⟩ => absurd heq.symm (by simp)

theorem Agrees.quiet {steps : List WorldStep} {a : WorldStep} (h : w.Agrees steps)
    (hreverts : ¬ (w.run steps).Reverts a) (hevents : (w.run steps).events a = [])
    (herror : ((w.run steps).step a).session.lastError = (w.run steps).session.lastError) :
    w.Agrees (steps ++ [a]) := by
  have hforgotten : w.Forgotten (steps ++ [a]) ↔ w.Forgotten steps := by
    rw [forgotten_append_singleton]
    simp only [hreverts,hevents,false_or,and_true]
  have hpage : w.page (steps ++ [a]) = w.page steps := by
    rw [page_append_singleton,hevents,List.foldl_nil]
  refine ⟨fun hn => ?_,fun hf => ?_⟩ <;> rw [hpage,run_append_singleton,herror]
  · exact h.known fun hf => hn (hforgotten.2 hf)
  · exact h.forgotten (hforgotten.1 hf)

theorem agrees_of_told {steps : List WorldStep} {a : WorldStep} {e : ServerEvent}
    (hreverts : ¬ (w.run steps).Reverts a) (hevents : (w.run steps).events a = [e])
    (hshow : e.show (w.page steps) = ((w.run steps).step a).session.lastError.map CompileError.shown) :
    w.Agrees (steps ++ [a]) where
  known _ := by
    rw [page_append_singleton,hevents,run_append_singleton]
    exact hshow
  forgotten hf := by
    obtain hr | ⟨-,hquiet⟩ := forgotten_append_singleton.1 hf
    · exact absurd hr hreverts
    · rw [hevents] at hquiet
      contradiction

theorem Agrees.unchanged {steps : List WorldStep} {a : WorldStep} (h : w.Agrees steps)
    (ho : (w.run steps).outcome? a = some .unchanged)
    (herror : ((w.run steps).step a).session.lastError = none) : w.Agrees (steps ++ [a]) := by
  have hevents : (w.run steps).events a = [] := events_of_outcome ho
  -- An error that is taken back was shown, since no error is forgotten as long as the session has one.
  cases hbefore : (w.run steps).session.lastError with
  | none => exact h.quiet (fun hr => hr.1 hbefore) hevents (herror.trans hbefore.symm)
  | some e =>
    have hpage : w.page (steps ++ [a]) = some e.shown := by
      rw [page_append_singleton,hevents,List.foldl_nil,h.known fun hf => ?_,hbefore]
      · rfl
      · exact absurd ((h.forgotten hf).1.symm.trans hbefore) (by simp)
    refine ⟨fun hn => absurd (forgotten_append_singleton.2 (.inl ⟨?_,ho⟩)) hn,fun _ => ⟨?_,?_⟩⟩
    · simp [hbefore]
    · rw [run_append_singleton,herror]
    · simp [hpage]

theorem agrees (h : w.session.lastError = none) (steps : List WorldStep) : w.Agrees steps := by
  induction steps using List.reverseRecOn with
  | nil => exact agrees_nil h
  | append_singleton steps a ih =>
    rcases (w.run steps).step_outcome a with ⟨hnone,herror⟩ | ⟨t,o,ho,htells⟩
    · exact ih.quiet (fun hr => absurd (hnone.symm.trans hr.2) (by simp)) (events_of_no_outcome hnone) herror
    · have hkeeps : o ≠ .unchanged → ¬ (w.run steps).Reverts a := fun hne hr =>
        hne (Option.some.inj (ho.symm.trans hr.2))
      have hevents := events_of_outcome ho
      cases o with
      | applied summary =>
        obtain ⟨-,⟨d,hd,-⟩,herror⟩ := htells
        simp only [Server.eventsOf,hd,Option.map_some,Option.toList_some] at hevents
        refine agrees_of_told (hkeeps (by simp)) hevents ?_
        rw [herror]
        rfl
      | failed e =>
        refine agrees_of_told (hkeeps (by simp)) hevents ?_
        rw [htells.2.2]
        rfl
      | stale => exact ih.quiet (hkeeps (by simp)) hevents (congrArg (·.lastError) htells.2)
      | unchanged => exact ih.unchanged ho htells.2.2

/-- The page shows the error of the session, and no error if there is none, unless one has been taken back and
nothing been told since.  An error of the session is shown in any case. -/
theorem page_shows_last_error (root : RawText) (space : String) (config : ProjectConfig) (d : Disk)
    (steps : List WorldStep) :
    let w := start root space config d
    (w.page steps = (w.run steps).session.lastError.map CompileError.shown ↔ ¬ w.Forgotten steps) ∧
    ∀ e, (w.run steps).session.lastError = some e → w.page steps = some e.shown := by
  intro w
  have h : w.Agrees steps := agrees rfl steps
  refine ⟨⟨fun heq hf => ?_,h.known⟩,fun e he => ?_⟩
  · obtain ⟨hnone,hshown⟩ := h.forgotten hf
    rw [hnone] at heq
    exact hshown heq
  · rw [h.known fun hf => absurd ((h.forgotten hf).1.symm.trans he) (by simp),he]
    rfl

/-- The disk is edited, and a pass goes from its beginning to its end. -/
def passOver (t : Ticket) (d : Disk) : List WorldStep :=
  .edit d :: .beginPass :: List.replicate 5 (.advance t)

theorem completes_passOver {t : Ticket} {es : List (RawText × DiskNode)} (hroot : w.server.root = "/")
    (ht : w.session.gate.requested + 1 = t) :
    w.Completes ⟨t,w.session.fingerprint⟩ (w.server.recompileTop es) (passOver t { top := .directory es }) := by
  subst ht
  rw [← Server.recompile_top hroot]
  refine Completes.cons (Completes.cons ?_ rfl) rfl
  let w' := ({ w with disk := { top := .directory es } } : World).put w.server.beginPass.1 .begun
    w.server.beginPass.2.session
  have hlook : FileSet.ofDisk w.server.root { top := .directory es } = .ok (.ofWalk (Disk.walkEntries [] es)) :=
    hroot ▸ FileSet.ofDisk_top es
  exact completes_of_undisturbed (w := w') (passes_put ..) hlook

/-- When the edit is taken back that a build has failed on, in the third pass here, the page goes on to show the
error. -/
theorem page_keeps_error_of_reverted_edit :
    let app (content : String) : List (RawText × DiskNode) := [("App.js",.file (textBytes content))]
    let w := start "/" "preview" {} { top := .directory (app "") }
    let steps := passOver 1 { top := .directory (app "") } ++
      passOver 2 { top := .directory (app "import './Missing';") } ++ passOver 3 { top := .directory (app "") }
    (∃ p fs, (w.run steps).passes 3 = some (p,.finished fs)) ∧ (w.run steps).session.lastError = none ∧
    w.page steps = some ⟨"RESOLUTION_ERROR","Cannot resolve './Missing' imported from /App.js",some "/App.js"⟩ := by
  obtain ⟨first,second,third,hfirst,hsecond,hthird,hroot₁,ht₁,hroot₂,ht₂,herror,hpage⟩ :
      ∃ first second third, first = (Server.start "/" "preview" {}).recompileTop [("App.js",.file (textBytes ""))] ∧
      second = first.2.recompileTop [("App.js",.file (textBytes "import './Missing';"))] ∧
      third = second.2.recompileTop [("App.js",.file (textBytes ""))] ∧
      first.2.root = "/" ∧ first.2.session.gate.requested + 1 = 2 ∧
      second.2.root = "/" ∧ second.2.session.gate.requested + 1 = 3 ∧ third.2.session.lastError = none ∧
      (first.1 ++ second.1 ++ third.1).foldl ServerEvent.show none =
        some ⟨"RESOLUTION_ERROR","Cannot resolve './Missing' imported from /App.js",some "/App.js"⟩ :=
    ⟨_,_,_,rfl,rfl,rfl,by decide +kernel⟩
  intro app w steps
  have h₁ : w.Completes ⟨1,none⟩ first (passOver 1 { top := .directory (app "") }) := by
    rw [hfirst]
    exact completes_passOver (w := w) rfl rfl
  let w₁ := w.run (passOver 1 { top := .directory (app "") })
  have hw₁ : w₁.server = first.2 := h₁.server
  have h₂ : w₁.Completes ⟨2,w₁.session.fingerprint⟩ second
      (passOver 2 { top := .directory (app "import './Missing';") }) := by
    rw [hsecond,← hw₁]
    rw [← hw₁] at hroot₁ ht₁
    exact completes_passOver hroot₁ ht₁
  let w₂ := w₁.run (passOver 2 { top := .directory (app "import './Missing';") })
  have hw₂ : w₂.server = second.2 := h₂.server
  have h₃ : w₂.Completes ⟨3,w₂.session.fingerprint⟩ third (passOver 3 { top := .directory (app "") }) := by
    rw [hthird,← hw₂]
    rw [← hw₂] at hroot₂ ht₂
    exact completes_passOver hroot₂ ht₂
  have hrun : w.run steps = w₂.run (passOver 3 { top := .directory (app "") }) := by
    simp only [steps,run,List.foldl_append,w₂,w₁]
  have htold : w.told steps = first.1 ++ second.1 ++ third.1 := by
    rw [told_append,told_append,h₁.told,h₂.told,run,List.foldl_append]
    exact congrArg _ h₃.told
  obtain ⟨fs,hfinished⟩ := h₃.finished
  rw [← hrun] at hfinished
  refine ⟨⟨_,fs,hfinished⟩,?_,?_⟩
  · rw [hrun,World.session,h₃.server,herror]
  · rw [page,htold,hpage]

end World

end PreviewCompiler
