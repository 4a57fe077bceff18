import PreviewCompiler.Proofs.Preview.Session
import PreviewCompiler.Proofs.Registry.Address

namespace PreviewCompiler

open Data

/-- What can be asked of a session.  The results of passes are any, not only those of its own pipeline. -/
inductive PreviewCall where
  | request
  | recompile (fs : FileSet)
  | apply (t : Ticket) (result : Except CompileError PreviewBuild)
  | settleUnchanged (t : Ticket) (fingerprint : String)
  | recordError (e : RuntimeError)
  | teardown

/-- Is each file and each staged module the only one at its path? -/
def PreviewCall.IsFormed : PreviewCall → Prop
  | recompile fs => OrderedMap.IsOrdered fs
  | apply _ (.ok b) => b.staged.paths.Nodup
  | apply _ (.error _) | request | settleUnchanged .. | recordError _ | teardown => True

namespace PreviewSession

/-- What a pass that is asked for comes to, and the session after a call. -/
def perform (s : PreviewSession) : PreviewCall → Option ApplyOutcome × PreviewSession
  | .request => (none,s.request.2)
  | .recompile fs => (some (s.recompile fs).1,(s.recompile fs).2)
  | .apply t result => (some (s.apply t result).1,(s.apply t result).2)
  | .settleUnchanged t fingerprint =>
    match s.settleUnchanged t fingerprint with
    | some (o,s') => (some o,s')
    | none => (none,s)
  | .recordError e => (none,(s.recordError e).2)
  | .teardown => (none,s.teardown.2)

/-- The session after some calls. -/
def performAll (s : PreviewSession) (calls : List PreviewCall) : PreviewSession :=
  calls.foldl (fun s c => (s.perform c).2) s

/-- Does a call take away the page that is shown, for another one or for none? -/
def Clears (s : PreviewSession) (c : PreviewCall) : Prop :=
  c = .teardown ∨ ∃ summary, (s.perform c).1 = some (.applied summary)

/-- An error as it is listed. -/
def located (s : PreviewSession) (e : RuntimeError) : RuntimeError := { e with location := e.location.map s.locate }

/-- The error that is accepted by a call, if there is one. -/
def acceptedBy (s : PreviewSession) : PreviewCall → List RuntimeError
  | .recordError e => if (s.recordError e).1 then [s.located e] else []
  | .request | .recompile _ | .apply .. | .settleUnchanged .. | .teardown => []

/-- The errors that are accepted along some calls. -/
def acceptedAlong : PreviewSession → List PreviewCall → List RuntimeError
  | _, [] => []
  | s, c :: cs => s.acceptedBy c ++ acceptedAlong (s.perform c).2 cs

variable {s s' : PreviewSession} {c : PreviewCall} {calls : List PreviewCall} {e : RuntimeError}
  {accepted : List RuntimeError}

theorem accepts_iff : s.accepts e = true ↔
    ∃ d, s.document = some d ∧ (e.version = none ∨ e.version = some d.version) := by
  have hversion : ∀ d : PreviewDocument,
      e.version.all (· == d.version) = true ↔ e.version = none ∨ e.version = some d.version := fun d => by
    cases e.version <;> simp
  simp only [accepts,Option.any_eq_true,hversion]

theorem recordError_of_accepts (h : s.accepts e = true) : s.recordError e =
    (true,{ s with runtimeErrors := (s.runtimeErrors ++ [s.located e]).rtake errorLimit }) := if_pos h

theorem recordError_of_not_accepts (h : s.accepts e = false) : s.recordError e = (false,s) :=
  if_neg (Bool.eq_false_iff.1 h)

theorem recordError_fst (s : PreviewSession) (e : RuntimeError) : (s.recordError e).1 = s.accepts e := by
  cases h : s.accepts e with
  | true => rw [recordError_of_accepts h]
  | false => rw [recordError_of_not_accepts h]

/-- Whether an error is accepted rests on the document and on the version that it tells. -/
theorem accepts_congr {e' : RuntimeError} (hd : s'.document = s.document) (hv : e'.version = e.version) :
    s'.accepts e' = s.accepts e := by
  rw [accepts,accepts,hd,hv]

/-- Is `l'` the place `l`, but with the path of the module for the file, if the file denotes one? -/
def IsPlaced (r : Registry) (l l' : SourceLocation) : Prop :=
  l' = { l with file := l'.file } ∧ (∀ path, r.Denotes l.file path → l'.file = path) ∧
    ((∀ path, ¬ r.Denotes l.file path) → l'.file = l.file)

theorem isPlaced_locate (h : s.registry.Sound) (l : SourceLocation) : IsPlaced s.registry l (s.locate l) := by
  refine ⟨rfl,fun path hpath => ?_,fun hnone => ?_⟩
  · rw [locate,h.pathOf?_eq_some_iff.2 hpath]
    rfl
  · have hpath : s.registry.pathOf? l.file = none :=
      Option.eq_none_iff_forall_ne_some.2 fun path hpath => hnone path (h.denotes_of_pathOf? hpath)
    rw [locate,hpath]
    rfl

/-- An error keeps all but the file of its place. -/
theorem located_spec (h : s.registry.Sound) (e : RuntimeError) :
    s.located e = { e with location := (s.located e).location } ∧
      Option.Rel (IsPlaced s.registry) e.location (s.located e).location := by
  refine ⟨rfl,?_⟩
  obtain ⟨message,stack,_ | l,version⟩ := e
  · exact .none
  · exact .some (isPlaced_locate h l)

/-- What the errors and the document are after a pass. -/
def Keeps (s s' : PreviewSession) : ApplyOutcome → Prop
  | .applied _ => s'.runtimeErrors = []
  | .unchanged | .stale | .failed _ => s'.runtimeErrors = s.runtimeErrors ∧ s'.document = s.document

theorem keeps_replace (s : PreviewSession) (t : Ticket) (b : PreviewBuild) :
    s.Keeps (s.replace t b).2 (s.replace t b).1 := by
  cases hd : PreviewDocument.assemble (ImportMap.build (s.registry.commit b.staged).1 s.pipeline.redirects)
      b.styles [b.entry] s.pipeline.document t with
  | error e =>
    simp only [replace,hd]
    exact ⟨rfl,rfl⟩
  | ok d =>
    rw [replace_eq hd]
    exact rfl

theorem keeps_apply (s : PreviewSession) (t : Ticket) (result : Except CompileError PreviewBuild) :
    s.Keeps (s.apply t result).2 (s.apply t result).1 := by
  cases hg : s.gate.tryCommit t with
  | none =>
    rw [apply_of_late hg]
    exact ⟨rfl,rfl⟩
  | some gate =>
    cases result with
    | error e =>
      rw [apply_error hg]
      exact ⟨rfl,rfl⟩
    | ok b =>
      cases hc : s.isCurrent b.fingerprint with
      | true =>
        rw [apply_of_isCurrent hg hc]
        exact ⟨rfl,rfl⟩
      | false =>
        rw [apply_of_not_isCurrent hg hc]
        exact keeps_replace { s with gate } t b

theorem keeps_settleUnchanged {t : Ticket} {fingerprint : String} {o : ApplyOutcome}
    (h : s.settleUnchanged t fingerprint = some (o,s')) : s.Keeps s' o := by
  obtain ⟨-,⟨-,rfl,rfl⟩ | ⟨gate,-,rfl,rfl⟩⟩ := settleUnchanged_cases h
  · exact ⟨rfl,rfl⟩
  · exact ⟨rfl,rfl⟩

theorem keeps_recompile (s : PreviewSession) (fs : FileSet) : s.Keeps (s.recompile fs).2 (s.recompile fs).1 := by
  cases hsettle : s.request.2.settleUnchanged s.request.1 fs.fingerprint with
  | none =>
    rw [recompile_of_not_settled hsettle]
    exact keeps_apply s.request.2 _ _
  | some result =>
    rw [recompile_of_settled hsettle]
    exact keeps_settleUnchanged (s := s.request.2) (show _ = some (result.1,result.2) from hsettle)

/-- What the outcome tells of the errors, whatever the pass has been asked for with. -/
theorem keeps_perform {o : ApplyOutcome} (h : (s.perform c).1 = some o) : s.Keeps (s.perform c).2 o := by
  cases c with
  | request | recordError | teardown => contradiction
  | recompile fs =>
    obtain rfl := Option.some.inj h
    exact s.keeps_recompile fs
  | apply t result =>
    obtain rfl := Option.some.inj h
    exact s.keeps_apply t result
  | settleUnchanged t fingerprint =>
    cases hsettle : s.settleUnchanged t fingerprint with
    | none =>
      simp only [perform,hsettle] at h
      contradiction
    | some result =>
      simp only [perform,hsettle] at h ⊢
      obtain rfl := Option.some.inj h
      exact keeps_settleUnchanged hsettle

theorem runtimeErrors_of_clears (h : s.Clears c) : (s.perform c).2.runtimeErrors = [] := by
  obtain rfl | ⟨summary,h⟩ := h
  · rfl
  · exact keeps_perform h

/-- A call that takes no page away either records an error or leaves errors and document alone. -/
theorem perform_of_not_clears (h : ¬ s.Clears c) : (s.perform c).2.document = s.document ∧
    (s.acceptedBy c = [] ∧ (s.perform c).2.runtimeErrors = s.runtimeErrors ∨
      ∃ e, s.accepts e = true ∧ s.acceptedBy c = [s.located e] ∧
        (s.perform c).2.runtimeErrors = (s.runtimeErrors ++ [s.located e]).rtake errorLimit) := by
  have hpass : s.acceptedBy c = [] → ∀ o, (s.perform c).1 = some o → (s.perform c).2.document = s.document ∧
      s.acceptedBy c = [] ∧ (s.perform c).2.runtimeErrors = s.runtimeErrors := fun hnone o ho => by
    have hkeeps := keeps_perform ho
    cases o with
    | applied summary => exact absurd (.inr ⟨summary,ho⟩) h
    | unchanged | stale | failed => exact ⟨hkeeps.2,hnone,hkeeps.1⟩
  cases c with
  | request => exact ⟨rfl,.inl ⟨rfl,rfl⟩⟩
  | recompile fs => exact (hpass rfl _ rfl).imp_right .inl
  | apply t result => exact (hpass rfl _ rfl).imp_right .inl
  | settleUnchanged t fingerprint =>
    cases hsettle : s.settleUnchanged t fingerprint with
    | none =>
      rw [perform,hsettle]
      exact ⟨rfl,.inl ⟨rfl,rfl⟩⟩
    | some result =>
      exact (hpass rfl result.1 (by simp only [perform,hsettle])).imp_right .inl
  | recordError e =>
    cases haccepts : s.accepts e with
    | true =>
      rw [perform,acceptedBy,recordError_of_accepts haccepts]
      exact ⟨rfl,.inr ⟨e,haccepts,rfl,rfl⟩⟩
    | false =>
      rw [perform,acceptedBy,recordError_of_not_accepts haccepts]
      exact ⟨rfl,.inl ⟨rfl,rfl⟩⟩
  | teardown => exact absurd (.inl rfl) h

/-- The window moves on over what is accepted. -/
theorem runtimeErrors_perform (h : ¬ s.Clears c) (hs : s.runtimeErrors = accepted.rtake errorLimit) :
    (s.perform c).2.runtimeErrors = (accepted ++ s.acceptedBy c).rtake errorLimit := by
  obtain ⟨-,⟨hnone,herrors⟩ | ⟨e,-,hone,herrors⟩⟩ := perform_of_not_clears h
  · rw [herrors,hnone,List.append_nil,hs]
  · rw [herrors,hone,hs,rtake_rtake_append]

theorem accepts_of_mem_perform (h : ∀ e ∈ s.runtimeErrors, s.accepts e = true) :
    ∀ e ∈ (s.perform c).2.runtimeErrors, (s.perform c).2.accepts e = true := by
  intro e he
  by_cases hclears : s.Clears c
  · rw [runtimeErrors_of_clears hclears] at he
    contradiction
  · obtain ⟨hd,⟨-,herrors⟩ | ⟨e',haccepts,-,herrors⟩⟩ := perform_of_not_clears hclears
    · rw [accepts_congr hd rfl]
      exact h e (herrors ▸ he)
    · rw [herrors] at he
      obtain he | he := List.mem_append.1 (List.mem_of_mem_drop he)
      · exact (accepts_congr hd rfl).trans (h e he)
      · obtain rfl := List.mem_singleton.1 he
        exact (accepts_congr (e := e') hd rfl).trans haccepts

theorem registry_replace (s : PreviewSession) (t : Ticket) (b : PreviewBuild) :
    (s.replace t b).2.registry = (s.registry.commit b.staged).1 := by
  simp only [replace]
  split <;> rfl

theorem sound_apply (h : s.registry.Sound) {t : Ticket} {result : Except CompileError PreviewBuild}
    (hn : ∀ b, result = .ok b → b.staged.paths.Nodup) : (s.apply t result).2.registry.Sound := by
  obtain ⟨gate,b,hb,happly⟩ | ⟨-,hview⟩ := apply_cases s t result
  · rw [happly,registry_replace]
    exact h.commit (hn b hb)
  · exact hview.registry ▸ h

theorem sound_perform (h : s.registry.Sound) (hc : c.IsFormed) : (s.perform c).2.registry.Sound := by
  have hsettled : ∀ {s : PreviewSession} {t fingerprint result}, s.registry.Sound →
      s.settleUnchanged t fingerprint = some result → result.2.registry.Sound := fun h hsettle =>
    (sameView_settleUnchanged (show _ = some (_,_) from hsettle)).2.registry ▸ h
  cases c with
  | request => exact h
  | recompile fs =>
    have hrequest : s.request.2.registry.Sound := h
    rw [perform]
    cases hsettle : s.request.2.settleUnchanged s.request.1 fs.fingerprint with
    | none =>
      rw [recompile_of_not_settled hsettle]
      exact sound_apply hrequest fun b hb => (Pipeline.isStaged_of_build hc hb).nodup_paths
    | some result =>
      rw [recompile_of_settled hsettle]
      exact hsettled hrequest hsettle
  | apply t result =>
    refine sound_apply h fun b hb => ?_
    subst hb
    exact hc
  | settleUnchanged t fingerprint =>
    cases hsettle : s.settleUnchanged t fingerprint with
    | none =>
      simp only [perform,hsettle]
      exact h
    | some result =>
      simp only [perform,hsettle]
      exact hsettled h hsettle
  | recordError e => exact (sameView_recordError e s).registry ▸ h
  | teardown => exact h.releaseAll

theorem performAll_append (s : PreviewSession) (calls more : List PreviewCall) :
    s.performAll (calls ++ more) = (s.performAll calls).performAll more := List.foldl_append

theorem accepts_of_mem_performAll (h : ∀ e ∈ s.runtimeErrors, s.accepts e = true) (calls : List PreviewCall) :
    ∀ e ∈ (s.performAll calls).runtimeErrors, (s.performAll calls).accepts e = true :=
  List.foldlRecOn (motive := fun s : PreviewSession => ∀ e ∈ s.runtimeErrors, s.accepts e = true) calls _ h
    fun _ hs _ _ => accepts_of_mem_perform hs

theorem sound_performAll (h : s.registry.Sound) (hcalls : ∀ c ∈ calls, c.IsFormed) :
    (s.performAll calls).registry.Sound :=
  List.foldlRecOn (motive := fun s : PreviewSession => s.registry.Sound) calls _ h
    fun _ hs c hc => sound_perform hs (hcalls c hc)

/-- As long as no page is taken away, the list is a window on all that has been accepted. -/
theorem runtimeErrors_performAll (hs : s.runtimeErrors = accepted.rtake errorLimit)
    (hkeeps : ∀ earlier c later, calls = earlier ++ c :: later → ¬ (s.performAll earlier).Clears c) :
    (s.performAll calls).runtimeErrors = (accepted ++ s.acceptedAlong calls).rtake errorLimit := by
  induction calls generalizing s accepted with
  | nil => rwa [acceptedAlong,List.append_nil]
  | cons c calls ih =>
    rw [acceptedAlong,← List.append_assoc]
    refine ih (runtimeErrors_perform (hkeeps [] c calls rfl) hs) fun earlier c' later heq => ?_
    exact hkeeps (c :: earlier) c' later (congrArg (c :: ·) heq)

/-- A run is split by its last call that takes a page away, if there is one. -/
theorem exists_calls_since (s : PreviewSession) (calls : List PreviewCall) : ∃ before since, calls = before ++ since ∧
    (before = [] ∨ ∃ earlier c, before = earlier ++ [c] ∧ (s.performAll earlier).Clears c) ∧
    ∀ earlier c later, since = earlier ++ c :: later → ¬ (s.performAll (before ++ earlier)).Clears c := by
  induction calls using List.reverseRecOn with
  | nil => exact ⟨[],[],rfl,.inl rfl,fun _ _ _ h => by simp at h⟩
  | append_singleton calls c ih =>
    by_cases hclears : (s.performAll calls).Clears c
    · refine ⟨calls ++ [c],[],(List.append_nil _).symm,.inr ⟨calls,c,rfl,hclears⟩,fun _ _ _ h => by simp at h⟩
    · obtain ⟨before,since,rfl,hbefore,hsince⟩ := ih
      refine ⟨before,since ++ [c],List.append_assoc ..,hbefore,fun earlier c' later heq => ?_⟩
      cases later using List.reverseRecOn with
      | nil =>
        obtain ⟨rfl,hc⟩ := List.append_inj' heq rfl
        obtain rfl := List.singleton_inj.1 hc
        exact hclears
      | append_singleton later c'' =>
        rw [← List.cons_append,← List.append_assoc] at heq
        exact hsince earlier c' later (List.append_inj' heq rfl).1

/-- The list is a window on what has been accepted since a page was last taken away. -/
theorem exists_window (hs : s.runtimeErrors = []) (calls : List PreviewCall) : ∃ before since, calls = before ++ since ∧
    (before = [] ∨ ∃ earlier c, before = earlier ++ [c] ∧ (s.performAll earlier).Clears c) ∧
    (∀ earlier c later, since = earlier ++ c :: later → ¬ (s.performAll (before ++ earlier)).Clears c) ∧
    (s.performAll calls).runtimeErrors = ((s.performAll before).acceptedAlong since).rtake errorLimit := by
  obtain ⟨before,since,rfl,hbefore,hsince⟩ := s.exists_calls_since calls
  refine ⟨before,since,rfl,hbefore,hsince,?_⟩
  have hnone : (s.performAll before).runtimeErrors = ([] : List RuntimeError).rtake errorLimit := by
    obtain rfl | ⟨earlier,c,rfl,hclears⟩ := hbefore
    · exact hs
    · rw [performAll_append]
      exact runtimeErrors_of_clears hclears
  have hkeeps : ∀ earlier c later, since = earlier ++ c :: later →
      ¬ ((s.performAll before).performAll earlier).Clears c := fun earlier c later heq => by
    rw [← performAll_append]
    exact hsince earlier c later heq
  rw [performAll_append,runtimeErrors_performAll hnone hkeeps,List.nil_append]

/-- The errors that are listed are the last ones, up to the limit, of those that have been accepted since a page was last
taken away, in their order.  They are errors of the page that is shown, as far as they tell, and just these are accepted;
each of them with the path of the module that it comes from, if it denotes a module of that moment.  Passes that are not
applied leave the list as it is. -/
theorem errors_of_page (p : Pipeline) (space : String) (calls : List PreviewCall) (hcalls : ∀ c ∈ calls, c.IsFormed) :
    let start := empty p space
    let s := start.performAll calls
    (∃ before since, calls = before ++ since ∧
      (before = [] ∨ ∃ earlier c, before = earlier ++ [c] ∧ (start.performAll earlier).Clears c) ∧
      (∀ earlier c later, since = earlier ++ c :: later → ¬ (start.performAll (before ++ earlier)).Clears c) ∧
      s.runtimeErrors = ((start.performAll before).acceptedAlong since).rtake errorLimit) ∧
    (∀ e ∈ s.runtimeErrors, ∃ d, s.document = some d ∧ (e.version = none ∨ e.version = some d.version)) ∧
    (∀ e,
      ((s.recordError e).1 = true ↔
        ∃ d, s.document = some d ∧ (e.version = none ∨ e.version = some d.version)) ∧
      ((s.recordError e).1 = false → (s.recordError e).2 = s) ∧
      ((s.recordError e).1 = true →
        (s.recordError e).2 = { s with runtimeErrors := (s.runtimeErrors ++ [s.located e]).rtake errorLimit }) ∧
      s.located e = { e with location := (s.located e).location } ∧
      Option.Rel (IsPlaced s.registry) e.location (s.located e).location) ∧
    ∀ c o, (s.perform c).1 = some o → (∀ summary, o ≠ .applied summary) →
      (s.perform c).2.runtimeErrors = s.runtimeErrors := by
  intro start s
  have hsound : s.registry.Sound := sound_performAll (Registry.sound_empty space) hcalls
  have hempty : ∀ e ∈ start.runtimeErrors, start.accepts e = true := fun _ he => absurd he List.not_mem_nil
  refine ⟨exists_window rfl calls,fun e he => ?_,fun e => ⟨?_,fun hrejected => ?_,fun haccepted => ?_,
    located_spec hsound e⟩,fun c o ho happlied => ?_⟩
  · exact accepts_iff.1 (accepts_of_mem_performAll hempty calls e he)
  · rw [recordError_fst]
    exact accepts_iff
  · rw [recordError_fst] at hrejected
    rw [recordError_of_not_accepts hrejected]
  · rw [recordError_fst] at haccepted
    rw [recordError_of_accepts haccepted]
  · have hkeeps := keeps_perform ho
    cases o with
    | applied summary => exact absurd rfl (happlied summary)
    | unchanged | stale | failed => exact hkeeps.1

/-- There is one more error than the limit, the last one in a module.  An error of the page before is not accepted, and a
pass that fails leaves the list. -/
theorem errors_of_page_of_many :
    let fs : FileSet := [("/App.js",.file "")]
    let located := fun file => { message := "boom", location := some { file, line := some 3 } : RuntimeError }
    let calls := .recompile fs :: (List.range 50).map (fun n => PreviewCall.recordError { message := toString n }) ++
      [.recordError (located "http://localhost:5173/@blob/preview/1.js")]
    let s := (empty {} "preview").performAll calls
    let failed := PreviewCall.apply 2 (.error (.entryMissing []))
    s.runtimeErrors = (List.range' 1 49).map (fun n => { message := toString n }) ++ [located "/App.js"] ∧
    (s.recordError { message := "late", version := some 0 }).2 = s ∧
    (s.perform failed).2.runtimeErrors = s.runtimeErrors := by
  intro fs located calls
  have ho : OrderedMap.IsOrdered fs := by decide +kernel
  have hcalls : ∀ c ∈ calls, c.IsFormed := by
    refine List.forall_mem_append.2 ⟨List.forall_mem_cons.2 ⟨ho,?_⟩,List.forall_mem_singleton.2 trivial⟩
    exact List.forall_mem_map.2 fun _ _ => trivial
  have hlist : ((empty {} "preview").performAll calls).runtimeErrors =
      (List.range' 1 49).map (fun n => { message := toString n }) ++ [located "/App.js"] := by decide +kernel
  have hlate : (((empty {} "preview").performAll calls).recordError { message := "late", version := some 0 }).1 =
      false := by decide +kernel
  have hfailed : (((empty {} "preview").performAll calls).perform (.apply 2 (.error (.entryMissing [])))).1 =
      some (.failed (.entryMissing [])) := by decide +kernel
  obtain ⟨-,-,hrecord,hpass⟩ := errors_of_page {} "preview" calls hcalls
  generalize (empty {} "preview").performAll calls = s at hrecord hpass hlist hlate hfailed ⊢
  obtain ⟨-,hrejected,-⟩ := hrecord { message := "late", version := some 0 }
  exact ⟨hlist,hrejected hlate,hpass _ _ hfailed fun _ h => by contradiction⟩

end PreviewSession

end PreviewCompiler
