import PreviewCompiler.Proofs.Compile.SameFiles
import PreviewCompiler.Proofs.Preview.Session

namespace PreviewCompiler

open Data

/-- The snapshots that are built for a call. -/
def SessionCall.snapshots : SessionCall → List FileSet
  | recompile fs | apply _ fs => [fs]
  | request | settleUnchanged .. | recordError _ | teardown => []

namespace PreviewSession

variable {p : Pipeline} {seen : List StagedModule} {shown : Option (Ticket × PreviewBuild)}
  {s s' : PreviewSession} {fs : FileSet}

/-- The snapshots that are built along some calls. -/
def snapshotsAlong (calls : List SessionCall) : List FileSet := calls.flatMap (·.snapshots)

/-- Does a session show the same build as another one? -/
def SameBuild (s s' : PreviewSession) : Prop := s'.fingerprint = s.fingerprint ∧ s'.registry = s.registry

/-- Does a session show a build, which has been committed to the registry of another one? -/
def Renders (b : PreviewBuild) (s s' : PreviewSession) : Prop :=
  s'.fingerprint = some b.fingerprint ∧ s'.registry = (s.registry.commit b.staged).1

theorem sameBuild_settleUnchanged {t : Ticket} {fingerprint : String} {o : ApplyOutcome}
    (h : s.settleUnchanged t fingerprint = some (o,s')) : SameBuild s s' := by
  obtain ⟨-,⟨-,-,rfl⟩ | ⟨gate,-,-,rfl⟩⟩ := settleUnchanged_cases h
  · exact ⟨rfl,rfl⟩
  · exact ⟨rfl,rfl⟩

theorem Consistent.apply_renders (h : Consistent p seen shown s) (ho : OrderedMap.IsOrdered fs) (t : Ticket) :
    SameBuild s (s.apply t (p.build fs)).2 ∨
    ∃ b, p.build fs = .ok b ∧ Renders b s (s.apply t (p.build fs)).2 := by
  cases hg : s.gate.tryCommit t with
  | none =>
    rw [apply_of_late hg]
    exact .inl ⟨rfl,rfl⟩
  | some gate =>
    cases hb : p.build fs with
    | error e =>
      rw [apply_error hg]
      exact .inl ⟨rfl,rfl⟩
    | ok b =>
      cases hc : s.isCurrent b.fingerprint with
      | true =>
        rw [apply_of_isCurrent hg hc]
        exact .inl ⟨rfl,rfl⟩
      | false =>
        obtain ⟨-,-,hentry⟩ := Pipeline.of_build hb
        obtain ⟨d,hd⟩ := exists_assemble h.sound (Pipeline.isStaged_of_build ho hb) hentry
          s.pipeline.redirects s.pipeline.document t
        rw [apply_of_not_isCurrent hg hc,replace_eq (s := { s with gate }) hd]
        exact .inr ⟨b,rfl,rfl,rfl⟩

/-- What a call makes of the build that is shown: it stays, is taken away, or is replaced by that of the call. -/
theorem Consistent.call_renders {c : SessionCall} (h : Consistent p seen shown s) (hc : c.IsOrdered) :
    SameBuild s (s.call c) ∨ ((s.call c).fingerprint = none ∧ (s.call c).registry.modules = []) ∨
    ∃ fs ∈ c.snapshots, ∃ b, p.build fs = .ok b ∧ Renders b s (s.call c) := by
  obtain rfl := h.pipeline
  cases c with
  | request => exact .inl ⟨rfl,rfl⟩
  | recompile fs =>
    rw [PreviewSession.call]
    cases hsettle : s.request.2.settleUnchanged s.request.1 fs.fingerprint with
    | some result =>
      rw [recompile_of_settled hsettle]
      have hsame : SameBuild s.request.2 result.2 :=
        sameBuild_settleUnchanged (show _ = some (result.1,result.2) from hsettle)
      exact .inl hsame
    | none =>
      rw [recompile_of_not_settled hsettle]
      have hrequest : Consistent s.pipeline seen shown s.request.2 := h.congr ⟨rfl,rfl,rfl,rfl⟩
      rcases hrequest.apply_renders hc s.request.1 with hsame | ⟨b,hb,hrenders⟩
      · exact .inl hsame
      · exact .inr (.inr ⟨fs,List.mem_cons_self,b,hb,hrenders⟩)
  | apply t fs =>
    rcases h.apply_renders hc t with hsame | ⟨b,hb,hrenders⟩
    · exact .inl hsame
    · exact .inr (.inr ⟨fs,List.mem_cons_self,b,hb,hrenders⟩)
  | settleUnchanged t fingerprint =>
    rw [PreviewSession.call]
    cases hsettle : s.settleUnchanged t fingerprint with
    | some result => exact .inl (sameBuild_settleUnchanged (show _ = some (result.1,result.2) from hsettle))
    | none => exact .inl ⟨rfl,rfl⟩
  | recordError e =>
    rw [PreviewSession.call,PreviewSession.recordError]
    split
    · exact .inl ⟨rfl,rfl⟩
    · exact .inl ⟨rfl,rfl⟩
  | teardown => exact .inr (.inl ⟨rfl,rfl⟩)

/-- What is shown has been built for one of the calls, and since that call the registry has stayed as it was then. -/
theorem exists_call_of_fingerprint (p : Pipeline) (space : String) {calls : List SessionCall} {f : String}
    (ho : ∀ c ∈ calls, c.IsOrdered) (hf : ((empty p space).run calls).fingerprint = some f) :
    ∃ before c after, calls = before ++ c :: after ∧ ∃ fs ∈ c.snapshots, ∃ b, p.build fs = .ok b ∧
      b.fingerprint = f ∧
      ((empty p space).run calls).registry = (((empty p space).run before).registry.commit b.staged).1 := by
  -- Backwards, so that it is the last call with a build that is found.
  induction calls using List.reverseRecOn with
  | nil => contradiction
  | append_singleton calls c ih =>
    have hbefore : ∀ c' ∈ calls, c'.IsOrdered := fun c' hc' => ho c' (List.mem_append_left _ hc')
    have hc : c.IsOrdered := ho c (List.mem_append_right _ List.mem_cons_self)
    have hrun : (empty p space).run (calls ++ [c]) = ((empty p space).run calls).call c := List.foldl_append
    rw [hrun] at hf ⊢
    rcases (consistent_run p space hbefore).call_renders hc with ⟨hsame,hregistry⟩ | ⟨hnone,-⟩ | ⟨fs,hfs,b,hb,hshown⟩
    · obtain ⟨before,c',after,rfl,fs,hfs,b,hb,hbf,hr⟩ := ih hbefore (hsame ▸ hf)
      exact ⟨before,c',after ++ [c],by simp,fs,hfs,b,hb,hbf,hregistry.trans hr⟩
    · rw [hnone] at hf
      contradiction
    · rw [hshown.1] at hf
      exact ⟨calls,c,[],rfl,fs,hfs,b,hb,Option.some.inj hf,hshown.2⟩

theorem isOrdered_of_mem_snapshots {c : SessionCall} (hc : c.IsOrdered) (hfs : fs ∈ c.snapshots) :
    OrderedMap.IsOrdered fs := by
  cases c with
  | recompile fs' | apply t fs' =>
    obtain rfl := List.mem_singleton.1 hfs
    exact hc
  | request | settleUnchanged t f | recordError e | teardown => contradiction

theorem staged_of_mem_snapshots {c : SessionCall} {b : PreviewBuild} (hfs : fs ∈ c.snapshots)
    (hb : p.build fs = .ok b) : c.staged p = b.staged := by
  cases c with
  | recompile fs' | apply t fs' =>
    obtain rfl := List.mem_singleton.1 hfs
    exact SessionCall.staged_apply hb 0
  | request | settleUnchanged t f | recordError e | teardown => contradiction

/-- A snapshot with the fingerprint of what is shown has a build, with that fingerprint. -/
theorem exists_build_of_fingerprint (p : Pipeline) (space : String) {calls : List SessionCall}
    (ho : ∀ c ∈ calls, c.IsOrdered) (hfs : OrderedMap.IsOrdered fs) (hfit : ∀ x ∈ fs :: snapshotsAlong calls, x.Fits)
    (hinj : Blake3.NoCollision ((fs :: snapshotsAlong calls).map FileSet.hashInput))
    (h : ((empty p space).run calls).fingerprint = some fs.fingerprint) :
    ∃ b, p.build fs = .ok b ∧ b.fingerprint = fs.fingerprint := by
  obtain ⟨before,c,after,rfl,fs',hfs',b,hb,hbf,-⟩ := exists_call_of_fingerprint p space ho h
  have hc : c ∈ before ++ c :: after := List.mem_append_right _ List.mem_cons_self
  have hmem : fs' ∈ fs :: snapshotsAlong (before ++ c :: after) :=
    List.mem_cons_of_mem _ (List.mem_flatMap.2 ⟨c,hc,hfs'⟩)
  have hprint : fs'.fingerprint = fs.fingerprint := (Pipeline.of_build hb).2.1.symm.trans hbf
  have hfiles := FileSet.files_eq_of_fingerprint_eq hfit hinj hmem List.mem_cons_self hprint
  rw [p.build_congr (isOrdered_of_mem_snapshots (ho c hc) hfs') hfs hfiles] at hb
  exact ⟨b,hb,hbf⟩

/-- A pass that can be settled leaves what it would leave with its build. -/
theorem apply_eq_of_settled {t : Ticket} {b : PreviewBuild} {result : ApplyOutcome × PreviewSession}
    (h : s.settleUnchanged t b.fingerprint = some result) : s.apply t (.ok b) = result := by
  obtain ⟨hc,⟨hg,ho,hs⟩ | ⟨gate,hg,ho,hs⟩⟩ := settleUnchanged_cases (show _ = some (result.1,result.2) from h)
  · rw [apply_of_late hg]
    exact (Prod.ext ho hs).symm
  · rw [apply_of_isCurrent hg hc]
    exact (Prod.ext ho hs).symm

/-- Whether a pass is settled or built does not matter.  Snapshots with the same files have the same fingerprint and the
same build, and if hashes do not collide, a snapshot with the fingerprint of what is shown has a build. -/
theorem recompile_eq_apply (p : Pipeline) (space : String) (calls : List SessionCall) (fs : FileSet)
    (ho : ∀ c ∈ calls, c.IsOrdered) (hfs : OrderedMap.IsOrdered fs) :
    let s := (empty p space).run calls
    (∀ fs₁ fs₂ : FileSet, OrderedMap.IsOrdered fs₁ → OrderedMap.IsOrdered fs₂ → fs₁.files = fs₂.files →
      fs₁.fingerprint = fs₂.fingerprint ∧ p.build fs₁ = p.build fs₂) ∧
    ((∀ x ∈ fs :: snapshotsAlong calls, x.Fits) →
      Blake3.NoCollision ((fs :: snapshotsAlong calls).map FileSet.hashInput) →
      s.recompile fs = s.request.2.apply s.request.1 (p.build fs) ∧
      (s.fingerprint = some fs.fingerprint → ∃ b, p.build fs = .ok b)) := by
  intro s
  refine ⟨fun fs₁ fs₂ ho₁ ho₂ h => ⟨FileSet.fingerprint_congr h,p.build_congr ho₁ ho₂ h⟩,fun hfit hinj => ⟨?_,?_⟩⟩
  · have hpipeline : s.pipeline = p := (consistent_run p space ho).pipeline
    cases hsettle : s.request.2.settleUnchanged s.request.1 fs.fingerprint with
    | none => rw [recompile_of_not_settled hsettle,hpipeline]
    | some result =>
      obtain ⟨hcurrent,-⟩ := settleUnchanged_cases (show _ = some (result.1,result.2) from hsettle)
      have hshown : s.fingerprint = some fs.fingerprint := eq_of_beq hcurrent
      obtain ⟨b,hb,hbf⟩ := exists_build_of_fingerprint p space ho hfs hfit hinj hshown
      rw [recompile_of_settled hsettle,hb]
      rw [← hbf] at hsettle
      exact (apply_eq_of_settled hsettle).symm
  · intro hshown
    obtain ⟨b,hb,-⟩ := exists_build_of_fingerprint p space ho hfs hfit hinj hshown
    exact ⟨b,hb⟩

/-- A directory is made, which is not a change: the pass is settled. -/
theorem recompile_eq_apply_of_directory :
    let fs : FileSet := [("/App.js",.file "")]
    let fs' : FileSet := [("/App.js",.file ""),("/d",.directory)]
    let s := (empty {} "preview").run [.recompile fs]
    fs.fingerprint = fs'.fingerprint ∧
    s.recompile fs' = s.request.2.apply s.request.1 (Pipeline.build {} fs') ∧
    (s.fingerprint = some fs'.fingerprint → ∃ b, Pipeline.build {} fs' = .ok b) := by
  intro fs fs' s
  have ho : OrderedMap.IsOrdered fs := by decide +kernel
  have ho' : OrderedMap.IsOrdered fs' := by decide +kernel
  have hcalls : ∀ c ∈ [SessionCall.recompile fs], c.IsOrdered := by
    intro c hc
    obtain rfl := List.mem_singleton.1 hc
    exact ho
  have hfit : ∀ x ∈ fs' :: snapshotsAlong [.recompile fs], x.Fits := by decide +kernel
  have hsame : ∀ a ∈ (fs' :: snapshotsAlong [.recompile fs]).map FileSet.hashInput,
      ∀ b ∈ (fs' :: snapshotsAlong [.recompile fs]).map FileSet.hashInput, a = b := by decide +kernel
  obtain ⟨hfiles,hpass⟩ := recompile_eq_apply {} "preview" [.recompile fs] fs' hcalls ho'
  exact ⟨(hfiles fs fs' ho ho' rfl).1,hpass hfit fun a ha b hb _ => hsame a ha b hb⟩

end PreviewSession

end PreviewCompiler
