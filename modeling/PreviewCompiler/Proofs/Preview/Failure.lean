import PreviewCompiler.Proofs.Preview.Session

namespace PreviewCompiler

open Data

namespace PreviewSession

variable {p : Pipeline} {seen : List StagedModule} {shown : Option (Ticket × PreviewBuild)} {s : PreviewSession}
  {fs : FileSet} {t : Ticket} {b : PreviewBuild}

/-- The session after a pass that has left nothing but its ticket at the gate and an error, if it has one. -/
def settle (s : PreviewSession) (t : Ticket) (error : Option CompileError) : PreviewSession :=
  { s with gate := { s.gate with committed := t }, lastError := error }

/-- What a pass with a result leaves of a session, as its outcome tells. -/
def Leaves (t : Ticket) (result : Except CompileError PreviewBuild) (s s' : PreviewSession) : ApplyOutcome → Prop
  | .stale => s' = s
  | .unchanged => s' = s.settle t none
  | .failed e => result = .error e ∧ s' = s.settle t (some e)
  | .applied _ => ∃ b, result = .ok b ∧ s'.fingerprint = some b.fingerprint

/-- The entry of a build can be imported from the registry that the build is committed to. -/
theorem Consistent.exists_document (h : Consistent p seen shown s) (ho : OrderedMap.IsOrdered fs)
    (hb : p.build fs = .ok b) (t : Ticket) :
    ∃ d, PreviewDocument.assemble (ImportMap.build (s.registry.commit b.staged).1 p.redirects) b.styles [b.entry]
      p.document t = .ok d := by
  obtain ⟨-,-,hentry⟩ := Pipeline.of_build hb
  exact exists_assemble h.sound (Pipeline.isStaged_of_build ho hb) hentry p.redirects p.document t

theorem Consistent.apply_leaves (h : Consistent p seen shown s) (ho : OrderedMap.IsOrdered fs) (t : Ticket) :
    Leaves t (p.build fs) s (s.apply t (p.build fs)).2 (s.apply t (p.build fs)).1 := by
  cases hg : s.gate.tryCommit t with
  | none =>
    rw [apply_of_late hg]
    exact rfl
  | some gate =>
    obtain ⟨-,hgate⟩ := Gate.committed_of_tryCommit hg
    subst hgate
    cases hb : p.build fs with
    | error e =>
      rw [apply_error hg]
      exact ⟨rfl,rfl⟩
    | ok b =>
      cases hc : s.isCurrent b.fingerprint with
      | true =>
        rw [apply_of_isCurrent hg hc]
        exact rfl
      | false =>
        obtain ⟨d,hd⟩ := h.exists_document ho hb t
        rw [← h.pipeline] at hd
        rw [apply_of_not_isCurrent hg hc,replace_eq (s := { s with gate := { s.gate with committed := t } }) hd]
        exact ⟨b,rfl,rfl⟩

/-- A pass fails only if its build has failed, since every build has a document.  Then all of the session stays as it
was but the gate and the error; if the pass finds its snapshot shown already, only the error and the gate change, and
if it is late nothing does. -/
theorem failed_pass_keeps_session (p : Pipeline) (space : String) (calls : List SessionCall) (t : Ticket)
    (fs : FileSet) (ho : ∀ c ∈ calls, c.IsOrdered) (hfs : OrderedMap.IsOrdered fs) :
    let s := (empty p space).run calls
    let result := s.apply t (p.build fs)
    (∀ e, result.1 = .failed e → p.build fs = .error e ∧
      result.2 = { s with gate := { s.gate with committed := t }, lastError := some e }) ∧
    (result.1 = .unchanged →
      result.2 = { s with gate := { s.gate with committed := t }, lastError := none }) ∧
    (result.1 = .stale → result.2 = s) ∧
    ∀ b, p.build fs = .ok b → ∃ d, PreviewDocument.assemble
      (ImportMap.build (s.registry.commit b.staged).1 p.redirects) b.styles [b.entry] p.document t = .ok d := by
  intro s result
  have h : Consistent p _ _ s := consistent_run p space ho
  have hleaves : Leaves t (p.build fs) s result.2 result.1 := h.apply_leaves hfs t
  refine ⟨fun e he => ?_,fun hunchanged => ?_,fun hstale => ?_,fun b hb => h.exists_document hfs hb t⟩
  · rw [he] at hleaves
    exact hleaves
  · rw [hunchanged] at hleaves
    exact hleaves
  · rw [hstale] at hleaves
    exact hleaves

/-- An import is broken while a page is shown, whose errors are kept as well. -/
theorem failed_pass_keeps_session_of_broken_import :
    let good : FileSet := [("/App.js",.file "")]
    let broken : FileSet := [("/App.js",.file "import './Missing'")]
    let s := (empty {} "preview").run
      [.recompile good,.recordError { message := "boom" },.request]
    let result := s.apply 2 (Pipeline.build {} broken)
    let e := CompileError.resolution "./Missing" "/App.js"
    s.document.isSome = true ∧ s.runtimeErrors.length = 1 ∧ result.1 = .failed e ∧
    result.2 = { s with gate := { s.gate with committed := 2 }, lastError := some e } := by
  intro good broken s result e
  have hgood : OrderedMap.IsOrdered good := by decide +kernel
  have hbroken : OrderedMap.IsOrdered broken := by decide +kernel
  have hcalls : ∀ c ∈ [SessionCall.recompile good,.recordError { message := "boom" },.request], c.IsOrdered := by
    simp only [List.forall_mem_cons]
    exact ⟨hgood,trivial,trivial,fun _ hm => absurd hm List.not_mem_nil⟩
  have hfailed : result.1 = .failed e := by decide +kernel
  obtain ⟨hkeeps,-⟩ := failed_pass_keeps_session {} "preview" _ 2 broken hcalls hbroken
  exact ⟨by decide +kernel,by decide +kernel,hfailed,(hkeeps e hfailed).2⟩

end PreviewSession

end PreviewCompiler
