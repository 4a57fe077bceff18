import PreviewCompiler.Proofs.Server.World

namespace PreviewCompiler

open Data

namespace PreviewSession

variable {s s' : PreviewSession} {t : Ticket} {fs : FileSet}

/-- What a pass can make of a session when it ends.  After the end of a later pass it is nothing. -/
structure Ends (t : Ticket) (s s' : PreviewSession) : Prop where
  pipeline : s'.pipeline = s.pipeline
  requested : s'.gate.requested = s.gate.requested
  committed : s'.gate.committed = s.gate.committed ∨ s'.gate.committed = t
  late : t ≤ s.gate.committed → s' = s
  sound : s.registry.Sound → s'.registry.Sound

/-- Does a session show a snapshot under a ticket, or the error of building it? -/
def Settles (t : Ticket) (fs : FileSet) (s : PreviewSession) : Prop :=
  s.gate.committed = t ∧
  (s.fingerprint = some fs.fingerprint ∧ s.lastError = none ∨
    ∃ e, s.pipeline.build fs = .error e ∧ s.lastError = some e)

theorem Ends.refl (t : Ticket) (s : PreviewSession) : Ends t s s := ⟨rfl,rfl,.inl rfl,fun _ => rfl,id⟩

theorem Ends.committed_le (h : Ends t s s') : s.gate.committed ≤ s'.gate.committed := by
  by_cases ht : t ≤ s.gate.committed
  · exact Nat.le_of_eq (congrArg (·.gate.committed) (h.late ht).symm)
  · rcases h.committed with hc | hc
    · exact Nat.le_of_eq hc.symm
    · rw [hc]
      exact Nat.le_of_not_le ht

theorem ends_settleUnchanged {fingerprint : String} {o : ApplyOutcome}
    (h : s.settleUnchanged t fingerprint = some (o,s')) : Ends t s s' := by
  obtain ⟨-,⟨-,-,rfl⟩ | ⟨gate,hg,-,rfl⟩⟩ := settleUnchanged_cases h
  · exact .refl t _
  · obtain ⟨hlt,rfl⟩ := Gate.committed_of_tryCommit hg
    exact ⟨rfl,rfl,.inr rfl,fun hle => absurd hlt (Nat.not_lt.2 hle),id⟩

theorem settles_settleUnchanged {o : ApplyOutcome} (ht : s.gate.committed < t)
    (h : s.settleUnchanged t fs.fingerprint = some (o,s')) : Settles t fs s' := by
  obtain ⟨hc,⟨hg,-,-⟩ | ⟨gate,hg,-,rfl⟩⟩ := settleUnchanged_cases h
  · rw [tryCommit_eq_some ht] at hg
    contradiction
  · obtain ⟨-,rfl⟩ := Gate.committed_of_tryCommit hg
    exact ⟨rfl,.inl ⟨by simpa [isCurrent] using hc,rfl⟩⟩

theorem ends_apply (ho : OrderedMap.IsOrdered fs) (hs : s.registry.Sound) (t : Ticket) :
    Ends t s (s.apply t (s.pipeline.build fs)).2 := by
  by_cases ht : t ≤ s.gate.committed
  · rw [apply_of_late (tryCommit_eq_none_iff.2 ht)]
    exact .refl t s
  · obtain ⟨hp,hgate,hsound,-⟩ := apply_build_of_lt ho hs (Nat.lt_of_not_le ht)
    exact ⟨hp,by rw [hgate],.inr (by rw [hgate]),fun hle => absurd hle ht,fun _ => hsound⟩

theorem settles_apply (ho : OrderedMap.IsOrdered fs) (hs : s.registry.Sound) (ht : s.gate.committed < t) :
    Settles t fs (s.apply t (s.pipeline.build fs)).2 := by
  obtain ⟨hp,hgate,-,hshown⟩ := apply_build_of_lt ho hs ht
  exact ⟨by rw [hgate],by rwa [hp]⟩

end PreviewSession

/-- What holds of a pass in a phase: it has left nothing until it is finished, and if it is the latest one then, it
has settled what is shown. -/
def Phase.Holds (t : Ticket) (s : PreviewSession) : Phase → Prop
  | begun => s.gate.committed ≠ t
  | looked fs | checked fs => OrderedMap.IsOrdered fs ∧ s.gate.committed ≠ t
  | examined fs found => OrderedMap.IsOrdered fs ∧ s.gate.committed ≠ t ∧
    (found = .unchanged fs fs.fingerprint ∨ found = .built (s.pipeline.build fs))
  | finished fs => s.gate.requested = t → s.Settles t fs

namespace World

structure Valid (w : World) : Prop where
  sound : w.session.registry.Sound
  committed_le : w.session.gate.committed ≤ w.session.gate.requested
  passes : ∀ t p phase, w.passes t = some (p,phase) →
    p.ticket = t ∧ t ≤ w.session.gate.requested ∧ phase.Holds t w.session

variable {w : World} {p : Pass} {phase phase' : Phase} {s : PreviewSession}

theorem valid_start (root : RawText) (space : String) (config : ProjectConfig) (d : Disk) :
    (start root space config d).Valid where
  sound := Registry.sound_empty space
  committed_le := Nat.le_refl 0
  passes := fun _ _ _ h => by contradiction

/-- The end of a pass does not harm another one. -/
theorem holds_of_ends {t t' : Ticket} {s s' : PreviewSession} (h : phase.Holds t s) (he : PreviewSession.Ends t' s s')
    (ht : t ≠ t') (hle : t' ≤ s.gate.requested) : phase.Holds t s' := by
  have hne : s.gate.committed ≠ t → s'.gate.committed ≠ t := fun hc => by
    rcases he.committed with hc' | hc'
    · rwa [hc']
    · rw [hc']
      exact ht.symm
  cases phase with
  | begun => exact hne h
  | looked fs => exact ⟨h.1,hne h.2⟩
  | checked fs => exact ⟨h.1,hne h.2⟩
  | examined fs found => exact ⟨h.1,hne h.2.1,he.pipeline ▸ h.2.2⟩
  | finished fs =>
    intro hreq
    have hset := h (he.requested ▸ hreq)
    have hlate : t' ≤ s.gate.committed := by
      rw [hset.1,← hreq,he.requested]
      exact hle
    exact he.late hlate ▸ hset

theorem Valid.put (h : w.Valid) (hp : w.passes p.ticket = some (p,phase))
    (he : PreviewSession.Ends p.ticket w.session s) (hphase : phase'.Holds p.ticket s) :
    (w.put p phase' s).Valid := by
  obtain ⟨-,hle,-⟩ := h.passes _ _ _ hp
  refine ⟨he.sound h.sound,?_,fun t q ph hq => ?_⟩
  · change s.gate.committed ≤ s.gate.requested
    rw [he.requested]
    rcases he.committed with hc | hc
    · exact hc ▸ h.committed_le
    · exact hc ▸ hle
  · change (if t = p.ticket then some (p,phase') else w.passes t) = some (q,ph) at hq
    change q.ticket = t ∧ t ≤ s.gate.requested ∧ ph.Holds t s
    rw [he.requested]
    split at hq
    · rename_i ht
      obtain ⟨rfl,rfl⟩ := Prod.mk.inj (Option.some.inj hq)
      exact ⟨ht.symm,ht ▸ hle,ht ▸ hphase⟩
    · rename_i ht
      obtain ⟨hticket,hlet,hholds⟩ := h.passes t q ph hq
      exact ⟨hticket,hlet,holds_of_ends hholds he ht hle⟩

/-- What a step of a pass can do: nothing, or it takes the pass to a phase that holds. -/
theorem Valid.advance_cases (h : w.Valid) (hp : w.passes p.ticket = some (p,phase)) :
    w.advance p phase = w ∨ ∃ phase' s, w.advance p phase = w.put p phase' s ∧
      PreviewSession.Ends p.ticket w.session s ∧ phase'.Holds p.ticket s := by
  obtain ⟨-,hle,hholds⟩ := h.passes _ _ _ hp
  have hrefl := PreviewSession.Ends.refl p.ticket w.session
  have hlt : w.session.gate.committed ≠ p.ticket → w.session.gate.requested = p.ticket →
      w.session.gate.committed < p.ticket := fun hne hreq =>
    Nat.lt_of_le_of_ne (hreq ▸ h.committed_le) hne
  cases phase with
  | begun =>
    simp only [World.advance]
    split
    · rename_i fs hfs
      exact .inr ⟨_,_,rfl,hrefl,FileSet.isOrdered_ofDisk hfs,hholds⟩
    · exact .inl rfl
  | looked fs =>
    refine .inr ⟨_,_,rfl,hrefl,?_⟩
    split
    · exact hholds
    · rename_i hlatest
      exact fun hreq => absurd (by simpa [Gate.isLatest] using hreq) hlatest
  | checked fs =>
    refine .inr ⟨_,_,rfl,hrefl,hholds.1,hholds.2,?_⟩
    unfold Pass.compare
    split
    · exact .inl rfl
    · exact .inr rfl
  | examined fs found =>
    obtain ⟨ho,hne,rfl | rfl⟩ := hholds
    · simp only [World.advance]
      split
      · rename_i o session hsettle
        have hends := PreviewSession.ends_settleUnchanged hsettle
        refine .inr ⟨_,_,rfl,hends,fun hreq => ?_⟩
        rw [hends.requested] at hreq
        exact PreviewSession.settles_settleUnchanged (hlt hne hreq) hsettle
      · exact .inr ⟨_,_,rfl,hrefl,ho,hne,.inr rfl⟩
    · have hends := PreviewSession.ends_apply ho h.sound p.ticket
      refine .inr ⟨_,_,rfl,hends,fun hreq => ?_⟩
      rw [hends.requested] at hreq
      exact PreviewSession.settles_apply ho h.sound (hlt hne hreq)
  | finished fs => exact .inl rfl

theorem Valid.advance (h : w.Valid) (hp : w.passes p.ticket = some (p,phase)) : (w.advance p phase).Valid := by
  rcases h.advance_cases hp with heq | ⟨phase',s,heq,hends,hholds⟩
  · rwa [heq]
  · rw [heq]
    exact h.put hp hends hholds

/-- What a step of a pass makes of the session. -/
theorem Valid.ends_step (h : w.Valid) (t : Ticket) :
    PreviewSession.Ends t w.session (w.step (.advance t)).session := by
  cases hp : w.passes t with
  | none =>
    simp only [World.step,hp]
    exact .refl t w.session
  | some x =>
    obtain ⟨p,phase⟩ := x
    obtain ⟨rfl,-,-⟩ := h.passes t p phase hp
    rw [step_advance hp]
    rcases h.advance_cases hp with heq | ⟨phase',s,heq,hends,-⟩
    · rw [heq]
      exact .refl p.ticket w.session
    · rw [heq]
      exact hends

theorem Valid.beginPass (h : w.Valid) : (w.step .beginPass).Valid := by
  refine ⟨h.sound,Nat.le_succ_of_le h.committed_le,fun t q ph hq => ?_⟩
  change (if t = w.session.gate.requested + 1 then some (_,Phase.begun) else w.passes t) = some (q,ph) at hq
  change q.ticket = t ∧ t ≤ w.session.gate.requested + 1 ∧ ph.Holds t w.session.request.2
  split at hq
  · rename_i ht
    obtain ⟨rfl,rfl⟩ := Prod.mk.inj (Option.some.inj hq)
    refine ⟨ht.symm,ht ▸ Nat.le_refl _,?_⟩
    rw [ht]
    exact Nat.ne_of_lt (Nat.lt_succ_of_le h.committed_le)
  · obtain ⟨hticket,hle,hholds⟩ := h.passes t q ph hq
    refine ⟨hticket,Nat.le_succ_of_le hle,?_⟩
    cases ph with
    | finished fs => exact fun hreq => absurd (hreq ▸ hle) (Nat.not_succ_le_self _)
    | begun | looked fs | checked fs | examined fs found => exact hholds

theorem Valid.step (h : w.Valid) (a : WorldStep) : (w.step a).Valid := by
  cases a with
  | edit d => exact ⟨h.sound,h.committed_le,h.passes⟩
  | beginPass => exact h.beginPass
  | advance t =>
    cases hp : w.passes t with
    | none =>
      simp only [World.step,hp]
      exact h
    | some x =>
      obtain ⟨rfl,-,-⟩ := h.passes t x.1 x.2 hp
      rw [step_advance hp]
      exact h.advance hp

theorem Valid.run (h : w.Valid) (steps : List WorldStep) : (w.run steps).Valid := by
  induction steps generalizing w with
  | nil => exact h
  | cons a steps ih => exact ih (h.step a)

theorem Valid.committed_le_step (h : w.Valid) (a : WorldStep) :
    w.session.gate.committed ≤ (w.step a).session.gate.committed := by
  cases a with
  | edit d => exact Nat.le_refl _
  | beginPass => exact Nat.le_refl _
  | advance t => exact (h.ends_step t).committed_le

theorem Valid.committed_le_run (h : w.Valid) (steps : List WorldStep) :
    w.session.gate.committed ≤ (w.run steps).session.gate.committed := by
  induction steps generalizing w with
  | nil => exact Nat.le_refl _
  | cons a steps ih => exact Nat.le_trans (h.committed_le_step a) (ih (h.step a))

/-- When the pass with the latest ticket has finished, its snapshot is shown and there is no error, or building the
snapshot fails with the error that is told.  Whatever happens then, no step of an earlier pass changes anything. -/
theorem latest_pass_settles (root : RawText) (space : String) (config : ProjectConfig) (d : Disk)
    (steps : List WorldStep) (p : Pass) (fs : FileSet) :
    let w := (start root space config d).run steps
    w.passes p.ticket = some (p,.finished fs) → w.session.gate.requested = p.ticket →
    w.session.gate.committed = p.ticket ∧
    (w.session.fingerprint = some fs.fingerprint ∧ w.session.lastError = none ∨
      ∃ e, w.session.pipeline.build fs = .error e ∧ w.session.lastError = some e) ∧
    ∀ later t, t < p.ticket → ((w.run later).step (.advance t)).session = (w.run later).session := by
  intro w hp hreq
  have hvalid : w.Valid := (valid_start root space config d).run steps
  obtain ⟨-,-,hholds⟩ := hvalid.passes _ _ _ hp
  obtain ⟨hcommitted,hshown⟩ := hholds hreq
  refine ⟨hcommitted,hshown,fun later t ht => ?_⟩
  have hle : t ≤ w.session.gate.committed := hcommitted ▸ Nat.le_of_lt ht
  exact ((hvalid.run later).ends_step t).late (Nat.le_trans hle (hvalid.committed_le_run later))

/-- The disk is edited while a pass is on its way, so that a second one overtakes it. -/
theorem latest_pass_settles_of_overtaking :
    let disk (content : String) : Disk := { top := .directory [("App.js",.file (textBytes content))] }
    let w := (start "/" "preview" {} (disk "")).run [.beginPass,.advance 1,.edit (disk "1"),.beginPass,
      .advance 2,.advance 2,.advance 2,.advance 1,.advance 2]
    ∃ p fs, w.passes p.ticket = some (p,.finished fs) ∧ w.session.gate.requested = p.ticket ∧
      w.session.gate.committed = p.ticket ∧
      (w.session.fingerprint = some fs.fingerprint ∧ w.session.lastError = none ∨
        ∃ e, w.session.pipeline.build fs = .error e ∧ w.session.lastError = some e) ∧
      ∀ later t, t < p.ticket → ((w.run later).step (.advance t)).session = (w.run later).session := by
  intro disk w
  let first := FileSet.ofWalk (Disk.walkBelow (disk "").top)
  let second := FileSet.ofWalk (Disk.walkBelow (disk "1").top)
  -- Following a path does not compute, so the two looks at the disk are taken by hand.
  let w₁ := (start "/" "preview" {} (disk "")).step .beginPass
  let w₂ := ((w₁.put ⟨1,none⟩ (.looked first) w₁.session).step (.edit (disk "1"))).step .beginPass
  let w₃ := (w₂.put ⟨2,none⟩ (.looked second) w₂.session).run [.advance 2,.advance 2,.advance 1,.advance 2]
  have hw : w = w₃ := by
    have h₁ : w₁.step (.advance 1) = w₁.put ⟨1,none⟩ (.looked first) w₁.session :=
      step_begun (p := ⟨1,none⟩) rfl (FileSet.ofDisk_top _)
    have h₂ : w₂.step (.advance 2) = w₂.put ⟨2,none⟩ (.looked second) w₂.session :=
      step_begun (p := ⟨2,none⟩) rfl (FileSet.ofDisk_top _)
    change ((((w₁.step (.advance 1)).step (.edit (disk "1"))).step .beginPass).step (.advance 2)).run
      [.advance 2,.advance 2,.advance 1,.advance 2] = _
    rw [h₁]
    change (w₂.step (.advance 2)).run _ = _
    rw [h₂]
  have hreq : w₃.session.gate.requested = 2 := by decide +kernel
  have hfinished : w₃.passes 2 = some (⟨2,none⟩,.finished second) := rfl
  rw [← hw] at hreq hfinished
  have h := latest_pass_settles "/" "preview" {} (disk "") [.beginPass,.advance 1,.edit (disk "1"),.beginPass,
    .advance 2,.advance 2,.advance 2,.advance 1,.advance 2] ⟨2,none⟩ second hfinished hreq
  exact ⟨⟨2,none⟩,second,hfinished,hreq,h⟩

end World

end PreviewCompiler
