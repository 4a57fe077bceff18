import PreviewCompiler.Proofs.Compile.Packages
import PreviewCompiler.Proofs.Preview.Rendered
import PreviewCompiler.Proofs.Registry.Content

namespace PreviewCompiler

open Data

namespace SessionCall

/-- The ticket under which a result is applied. -/
def ticket? : SessionCall → Option Ticket
  | apply t _ => some t
  | request | recompile _ | settleUnchanged .. | recordError _ | teardown => none

/-- Are some calls only requests of tickets, and results under tickets that have been taken?  Before them `n` tickets
have been. -/
def ArePasses : (n : Nat) → List SessionCall → Prop
  | _, [] => True
  | n, request :: calls => ArePasses (n + 1) calls
  | n, apply t _ :: calls => 0 < t ∧ t ≤ n ∧ ArePasses n calls
  | _, recompile _ :: _ | _, settleUnchanged .. :: _ | _, recordError _ :: _ | _, teardown :: _ => False

/-- Is a call one of those that a pass makes? -/
def IsPass (c : SessionCall) : Prop := c = request ∨ ∃ t fs, c = apply t fs ∧ 0 < t

theorem IsPass.pos {t : Ticket} {fs : FileSet} (h : (apply t fs).IsPass) : 0 < t := by
  obtain heq | ⟨t',fs',heq,ht⟩ := h
  · contradiction
  · obtain ⟨rfl,-⟩ := SessionCall.apply.inj heq
    exact ht

theorem ArePasses.isPass {n : Nat} {calls : List SessionCall} (h : ArePasses n calls) : ∀ c ∈ calls, c.IsPass := by
  fun_induction ArePasses n calls with
  | case1 => exact fun c hc => absurd hc List.not_mem_nil
  | case2 n calls ih =>
    intro c hc
    rcases List.mem_cons.1 hc with rfl | hc
    · exact .inl rfl
    · exact ih h c hc
  | case3 n t fs calls ih =>
    intro c hc
    rcases List.mem_cons.1 hc with rfl | hc
    · exact .inr ⟨t,fs,rfl,h.1⟩
    · exact ih h.2.2 c hc
  | case4 => contradiction
  | case5 => contradiction
  | case6 => contradiction
  | case7 => contradiction

end SessionCall

namespace PreviewSession

variable {p : Pipeline} {s s' : PreviewSession} {fs : FileSet} {calls : List SessionCall}

/-- The tickets under which results are applied, in the order of the calls. -/
def tickets (calls : List SessionCall) : List Ticket := calls.filterMap (·.ticket?)

theorem outcome_eq_stale_iff {t : Ticket} {result : Except CompileError PreviewBuild} :
    (s.apply t result).1 = .stale ↔ t ≤ s.gate.committed := by
  have h := s.apply_tells t result
  constructor
  · intro ho
    rw [ho] at h
    exact h.1
  · intro hle
    cases ho : (s.apply t result).1 with
    | stale => rfl
    | failed _ | unchanged | applied _ =>
      rw [ho] at h
      exact absurd h.1.1 (Nat.not_lt.2 hle)

theorem committed_apply (s : PreviewSession) (t : Ticket) (result : Except CompileError PreviewBuild) :
    (s.apply t result).2.gate.committed = max s.gate.committed t := by
  have h := s.apply_tells t result
  cases ho : (s.apply t result).1 with
  | stale =>
    rw [ho] at h
    rw [h.2]
    exact (Nat.max_eq_left h.1).symm
  | failed _ | unchanged | applied _ =>
    rw [ho] at h
    rw [h.1.2]
    exact (Nat.max_eq_right (Nat.le_of_lt h.1.1)).symm

/-- The latest ticket whose result has been applied is the greatest one. -/
theorem committed_run (s : PreviewSession) (h : ∀ c ∈ calls, c.IsPass) :
    (s.run calls).gate.committed = (tickets calls).foldl max s.gate.committed := by
  induction calls generalizing s with
  | nil => rfl
  | cons c calls ih =>
    obtain ⟨hc,hcalls⟩ := List.forall_mem_cons.1 h
    have hrun : s.run (c :: calls) = (s.call c).run calls := rfl
    rw [hrun,ih _ hcalls]
    obtain rfl | ⟨t,fs,rfl,-⟩ := hc
    · rfl
    · rw [call,committed_apply]
      rfl

theorem foldl_max_lt_iff {ts : List Nat} {n t : Nat} : ts.foldl max n < t ↔ n < t ∧ ∀ t' ∈ ts, t' < t := by
  induction ts generalizing n with
  | nil => simp
  | cons t' ts ih =>
    rw [List.foldl_cons,ih,List.forall_mem_cons,Nat.max_lt,and_assoc]

/-- The document is never of a later pass than the last result. -/
def Numbered (s : PreviewSession) : Prop := ∀ d, s.document = some d → d.version ≤ s.gate.committed

theorem Numbered.of_tells {t : Ticket} {o : ApplyOutcome} (h : s.Numbered) (ht : Tells t s s' o) : s'.Numbered := by
  intro d hd
  cases o with
  | stale => exact ht.2 ▸ h d (ht.2 ▸ hd)
  | failed _ | unchanged =>
    rw [ht.2.1] at hd
    rw [ht.1.2]
    exact Nat.le_trans (h d hd) (Nat.le_of_lt ht.1.1)
  | applied _ =>
    obtain ⟨d',hd',hv⟩ := ht.2.1
    obtain rfl := Option.some.inj (hd.symm.trans hd')
    rw [ht.1.2]
    exact Nat.le_of_eq hv

theorem numbered_run (h : s.Numbered) (hcalls : ∀ c ∈ calls, c.IsPass) : (s.run calls).Numbered := by
  induction calls generalizing s with
  | nil => exact h
  | cons c calls ih =>
    obtain ⟨hc,hcalls⟩ := List.forall_mem_cons.1 hcalls
    refine ih ?_ hcalls
    obtain rfl | ⟨t,fs,rfl,-⟩ := hc
    · exact h
    · exact h.of_tells (s.apply_tells t _)

/-- Results that come too late change nothing. -/
theorem run_of_late (h : ∀ c ∈ calls, c.IsPass) (hle : ∀ t ∈ tickets calls, t ≤ s.gate.committed) :
    ∃ n, s.run calls = { s with gate := { s.gate with requested := n } } := by
  induction calls generalizing s with
  | nil => exact ⟨s.gate.requested,rfl⟩
  | cons c calls ih =>
    obtain ⟨hc,hcalls⟩ := List.forall_mem_cons.1 h
    obtain rfl | ⟨t,fs,rfl,-⟩ := hc
    · exact ih (s := s.request.2) hcalls hle
    · obtain ⟨ht,hle⟩ := List.forall_mem_cons.1 (show ∀ t' ∈ t :: tickets calls, _ from hle)
      have hsame : s.call (.apply t fs) = s :=
        congrArg Prod.snd (apply_of_late (tryCommit_eq_none_iff.2 ht) (s.pipeline.build fs))
      have hrun : s.run (.apply t fs :: calls) = (s.call (.apply t fs)).run calls := rfl
      rw [hrun,hsame]
      exact ih hcalls hle

end PreviewSession

namespace SessionCall

variable {p : Pipeline} {c : SessionCall}

/-- All that is hashed for a call: its snapshot, the files that become modules, and their templates. -/
def hashInputs (p : Pipeline) (c : SessionCall) : List (List UInt8) :=
  (c.snapshots.flatMap fun fs => fs.hashInput :: fs.modules.map fun f => textBytes f.2)
    ++ (c.staged p).map StagedModule.hashInput

/-- Are the texts that are hashed for a call shorter than `2 ^ 64` bytes, as all are that a memory can hold? -/
def Fits (p : Pipeline) (c : SessionCall) : Prop := (∀ fs ∈ c.snapshots, fs.Fits) ∧ ∀ m ∈ c.staged p, m.Fits

instance (p : Pipeline) (c : SessionCall) : Decidable (c.Fits p) := inferInstanceAs (Decidable (_ ∧ _))

theorem exists_compile {m : StagedModule} (hm : m ∈ c.staged p) : ∃ fs ∈ c.snapshots, ∃ f ∈ fs.modules,
    Template.compile fs p.redirects p.transform f.1 f.2 = .ok m.template := by
  have hbuild : ∀ fs : FileSet, m ∈ ((p.build fs).toOption.map (·.staged)).getD [] →
      ∃ f ∈ fs.modules, Template.compile fs p.redirects p.transform f.1 f.2 = .ok m.template := by
    intro fs hm
    cases hb : p.build fs with
    | error e =>
      rw [hb] at hm
      contradiction
    | ok b =>
      rw [hb] at hm
      obtain ⟨f,hf,hcompile,-⟩ := FileSet.exists_of_mem_stage (Pipeline.of_build hb).1 hm
      exact ⟨f,hf,hcompile⟩
  cases c with
  | recompile fs | apply t fs => exact ⟨fs,List.mem_cons_self,hbuild fs hm⟩
  | request | settleUnchanged t f | recordError e | teardown => contradiction

end SessionCall

namespace PreviewSession

variable {p : Pipeline} {calls : List SessionCall}

def hashedAlong (p : Pipeline) (calls : List SessionCall) : List (List UInt8) := calls.flatMap (·.hashInputs p)

theorem hashInput_mem_of_snapshot {fs : FileSet} (h : fs ∈ snapshotsAlong calls) :
    fs.hashInput ∈ hashedAlong p calls := by
  obtain ⟨c,hc,hfs⟩ := List.mem_flatMap.1 h
  exact List.mem_flatMap.2 ⟨c,hc,List.mem_append_left _ (List.mem_flatMap.2 ⟨fs,hfs,List.mem_cons_self⟩)⟩

theorem hashInput_mem_of_staged {m : StagedModule} (h : m ∈ stagedAlong p calls) :
    m.hashInput ∈ hashedAlong p calls := by
  obtain ⟨c,hc,hm⟩ := List.mem_flatMap.1 h
  exact List.mem_flatMap.2 ⟨c,hc,List.mem_append_right _ (List.mem_map_of_mem hm)⟩

theorem noCollision_staged (h : Blake3.NoCollision (hashedAlong p calls)) :
    Registry.NoCollision (stagedAlong p calls) := fun _ hm _ hm' =>
  h _ (hashInput_mem_of_staged hm) _ (hashInput_mem_of_staged hm')

/-- All modules are compiled with the options of the session, from texts that are hashed. -/
theorem compiledFrom_of_stagedAlong {m : StagedModule} (h : m ∈ stagedAlong p calls) :
    m.CompiledFrom p.transform (hashedAlong p calls) := by
  obtain ⟨c,hc,hm⟩ := List.mem_flatMap.1 h
  obtain ⟨fs,hfs,f,hf,hcompile⟩ := SessionCall.exists_compile hm
  obtain ⟨hpath,-⟩ := Template.of_compile hcompile
  rw [← hpath] at hcompile
  refine ⟨fs,p.redirects,p.transform,f.2,hcompile,rfl,rfl,List.mem_flatMap.2 ⟨c,hc,List.mem_append_left _ ?_⟩⟩
  exact List.mem_flatMap.2 ⟨fs,hfs,List.mem_cons_of_mem _ (List.mem_map_of_mem hf)⟩

/-- Every module is registered with what was staged for one of the calls. -/
theorem comesFrom_run (p : Pipeline) (space : String) (ho : ∀ c ∈ calls, c.IsOrdered) :
    ((empty p space).run calls).registry.ComesFrom (stagedAlong p calls) := by
  induction calls using List.reverseRecOn with
  | nil => exact Registry.comesFrom_empty space
  | append_singleton calls c ih =>
    have hbefore : ∀ c' ∈ calls, c'.IsOrdered := fun c' hc' => ho c' (List.mem_append_left _ hc')
    have hc : c.IsOrdered := ho c (List.mem_append_right _ List.mem_cons_self)
    have hcons := consistent_run p space hbefore
    have hrun : (empty p space).run (calls ++ [c]) = ((empty p space).run calls).call c := List.foldl_append
    rw [hrun,stagedAlong_append_singleton]
    rcases hcons.call_renders hc with hsame | ⟨-,hempty⟩ | ⟨fs,hfs,b,hb,hshown⟩
    · rw [hsame.2]
      exact (ih hbefore).mono fun _ hm => List.mem_append_left _ hm
    · intro path m hm
      rw [Registry.module?,hempty] at hm
      contradiction
    · have hord := isOrdered_of_mem_snapshots hc hfs
      rw [hshown.2,staged_of_mem_snapshots hfs hb]
      exact (ih hbefore).commit hcons.sound (Pipeline.isStaged_of_build hord hb).nodup_paths

/-- What a commit after any calls registers for a build is that build. -/
theorem presents_commit (p : Pipeline) (space : String) (before : List SessionCall) {staged : StagedBuild}
    (ho : ∀ c ∈ before, c.IsOrdered) (hs : staged.IsStaged)
    (hbefore : ∀ m ∈ stagedAlong p before, m ∈ stagedAlong p calls)
    (hstaged : ∀ m ∈ staged, m ∈ stagedAlong p calls) (hfit : ∀ c ∈ calls, c.Fits p)
    (hinj : Blake3.NoCollision (hashedAlong p calls)) :
    (((empty p space).run before).registry.commit staged).1.Presents staged := by
  have hcons := consistent_run p space ho
  have hseen : ∀ m ∈ stagedAlong p before ++ staged, m ∈ stagedAlong p calls := fun m hm =>
    (List.mem_append.1 hm).elim (hbefore m) (hstaged m)
  have hfits : ∀ m ∈ stagedAlong p calls, m.Fits := by
    intro m hm
    obtain ⟨c,hc,hm⟩ := List.mem_flatMap.1 hm
    exact (hfit c hc).2 m hm
  have hno := (noCollision_staged hinj).subset hseen
  have hfit' : ∀ m ∈ stagedAlong p before ++ staged, m.Fits := fun m hm => hfits m (hseen m hm)
  obtain ⟨hup,-⟩ := hcons.linked (fun m hm => hfits m (hbefore m hm)) ((noCollision_staged hinj).subset hbefore)
  exact hup.presents_commit (comesFrom_run p space ho) hcons.sound hs hcons.templates hfit' hno
    (Registry.samePackages_of_compiledFrom (fun m hm => compiledFrom_of_stagedAlong (hbefore m hm))
      (fun m hm => compiledFrom_of_stagedAlong (hstaged m hm)) hinj)

/-- A session that shows the fingerprint of a snapshot holds the build of the snapshot. -/
theorem presents_of_fingerprint (p : Pipeline) (space : String) {t : Ticket} {fs : FileSet} {b : PreviewBuild}
    (ho : ∀ c ∈ calls, c.IsOrdered) (hfit : ∀ c ∈ calls, c.Fits p) (hinj : Blake3.NoCollision (hashedAlong p calls))
    (hc : .apply t fs ∈ calls) (hb : p.build fs = .ok b)
    (hf : ((empty p space).run calls).fingerprint = some b.fingerprint) :
    ((empty p space).run calls).registry.Presents b.staged := by
  -- The build that is held may be that of an earlier pass with the same files, which is the same build.
  obtain ⟨before,c,after,rfl,fs',hfs',b',hb',hbf,hregistry⟩ := exists_call_of_fingerprint p space ho hf
  have hcmem : c ∈ before ++ c :: after := List.mem_append_right _ List.mem_cons_self
  have hsnap : fs ∈ snapshotsAlong (before ++ c :: after) := List.mem_flatMap.2 ⟨_,hc,List.mem_cons_self⟩
  have hsnap' : fs' ∈ snapshotsAlong (before ++ c :: after) := List.mem_flatMap.2 ⟨c,hcmem,hfs'⟩
  have hfits : ∀ x ∈ snapshotsAlong (before ++ c :: after), x.Fits := by
    intro x hx
    obtain ⟨c',hc',hx⟩ := List.mem_flatMap.1 hx
    exact (hfit c' hc').1 x hx
  have hnone : Blake3.NoCollision ((snapshotsAlong (before ++ c :: after)).map FileSet.hashInput) := by
    refine hinj.subset fun a ha => ?_
    obtain ⟨x,hx,rfl⟩ := List.mem_map.1 ha
    exact hashInput_mem_of_snapshot hx
  have hprint : fs'.fingerprint = fs.fingerprint := by
    rw [← (Pipeline.of_build hb').2.1,← (Pipeline.of_build hb).2.1,hbf]
  have hfiles := FileSet.files_eq_of_fingerprint_eq hfits hnone hsnap' hsnap hprint
  have hord := ho _ hc
  have hord' := isOrdered_of_mem_snapshots (ho c hcmem) hfs'
  obtain rfl : b' = b := by
    rw [p.build_congr hord' hord hfiles,hb] at hb'
    exact (Except.ok.inj hb').symm
  rw [hregistry]
  refine presents_commit p space before (fun c' hc' => ho c' (List.mem_append_left _ hc'))
    (Pipeline.isStaged_of_build hord hb) ?_ ?_ hfit hinj
  · intro m hm
    rw [stagedAlong,List.flatMap_append]
    exact List.mem_append_left _ hm
  · intro m hm
    exact List.mem_flatMap.2 ⟨c,hcmem,by rwa [staged_of_mem_snapshots hfs' hb']⟩

/-- A pass is in time if no later one has been. -/
theorem committed_lt_iff (p : Pipeline) (space : String) {before : List SessionCall} {t : Ticket}
    (h : ∀ c ∈ before, c.IsPass) (ht : 0 < t) :
    ((empty p space).run before).gate.committed < t ↔ ∀ t' ∈ tickets before, t' < t := by
  rw [committed_run _ h,foldl_max_lt_iff]
  exact and_iff_right ht

/-- What the latest pass has built is shown in the end. -/
theorem fingerprint_of_latest (p : Pipeline) (space : String) {before after : List SessionCall} {t : Ticket}
    {fs : FileSet} {b : PreviewBuild} (h : ∀ c ∈ before ++ .apply t fs :: after, c.IsPass)
    (ho : ∀ c ∈ before ++ .apply t fs :: after, c.IsOrdered) (hbefore : ∀ t' ∈ tickets before, t' < t)
    (hafter : ∀ t' ∈ tickets after, t' ≤ t) (hb : p.build fs = .ok b) :
    let s := (empty p space).run (before ++ .apply t fs :: after)
    s.fingerprint = some b.fingerprint ∧ s.lastError = none := by
  obtain ⟨hpass,hrest⟩ := List.forall_mem_append.1 h
  obtain ⟨hord,hord'⟩ := List.forall_mem_append.1 ho
  let s₀ := (empty p space).run before
  have hcons := consistent_run p space hord
  have hlt : s₀.gate.committed < t :=
    (committed_lt_iff p space hpass (hrest _ List.mem_cons_self).pos).2 hbefore
  obtain ⟨-,hgate,-,hshown⟩ := apply_build_of_lt (hord' _ List.mem_cons_self) hcons.sound hlt
  have hlate : ∀ t' ∈ tickets after, t' ≤ (s₀.call (.apply t fs)).gate.committed := by
    intro t' ht'
    rw [call,hgate]
    exact hafter t' ht'
  obtain ⟨n,hn⟩ := run_of_late (fun c hc => hrest c (List.mem_cons_of_mem _ hc)) hlate
  have hrun : (empty p space).run (before ++ .apply t fs :: after) = (s₀.call (.apply t fs)).run after :=
    List.foldl_append
  rw [hrun,hn]
  rw [hcons.pipeline,hb] at hshown
  rcases hshown with ⟨hf,herror⟩ | ⟨e,he,-⟩
  · rw [(Pipeline.of_build hb).2.1]
    refine ⟨?_,?_⟩
    · rw [call,hcons.pipeline,hb]
      exact hf
    · rw [call,hcons.pipeline,hb]
      exact herror
  · contradiction

/-- The results of passes can come in any order.  One counts if none of a later pass has come before, and otherwise it
changes nothing; the versions of the documents ascend.  When the latest pass has a build, a session ends with that: only
the addresses differ from those in a registry of nothing else. -/
theorem latest_result_wins (p : Pipeline) (space : String) (calls : List SessionCall)
    (hpasses : SessionCall.ArePasses 0 calls) (hn : (tickets calls).Nodup) (ho : ∀ c ∈ calls, c.IsOrdered) :
    (∀ before t fs after, calls = before ++ .apply t fs :: after →
      let s := (empty p space).run before
      let outcome := (s.apply t (p.build fs)).1
      let s' := s.call (.apply t fs)
      (outcome ≠ .stale ↔ ∀ t' ∈ tickets before, t' < t) ∧ (outcome = .stale → s' = s) ∧
      ∀ summary, outcome = .applied summary → ∃ d, s'.document = some d ∧ d.version = t ∧
        ∀ d', s.document = some d' → d'.version < d.version) ∧
    ((∀ c ∈ calls, c.Fits p) → Blake3.NoCollision (hashedAlong p calls) →
      ∀ t fs b, .apply t fs ∈ calls → (∀ t' ∈ tickets calls, t' ≤ t) → p.build fs = .ok b →
      let s := (empty p space).run calls
      let alone := ((Registry.empty space).commit b.staged).1
      s.fingerprint = some b.fingerprint ∧ s.lastError = none ∧
      s.registry.Presents b.staged ∧ alone.Presents b.staged ∧
      s.importMap.imports.keys = (ImportMap.build alone p.redirects).imports.keys ∧
      ∃ rename, Registry.Readdresses rename alone s.registry ∧ ∀ m ∈ b.staged,
        s.registry.targets m.template.links.modules = (alone.targets m.template.links.modules).map rename) := by
  have hpass := hpasses.isPass
  refine ⟨?_,?_⟩
  · rintro before t fs after rfl s outcome s'
    obtain ⟨hbefore,hrest⟩ := List.forall_mem_append.1 hpass
    have hpipeline : s.pipeline = p := (consistent_run p space (List.forall_mem_append.1 ho).1).pipeline
    have ht := (hrest _ List.mem_cons_self).pos
    have hs' : s' = (s.apply t (p.build fs)).2 := by
      rw [← hpipeline]
      rfl
    have htells : Tells t s s' outcome := hs' ▸ s.apply_tells t (p.build fs)
    refine ⟨?_,fun hstale => ?_,fun summary happlied => ?_⟩
    · rw [Ne,outcome_eq_stale_iff,Nat.not_le]
      exact committed_lt_iff p space hbefore ht
    · rw [hstale] at htells
      exact htells.2
    · rw [happlied] at htells
      obtain ⟨⟨hlt,-⟩,⟨d,hd,hv⟩,-⟩ := htells
      have hnumbered : s.Numbered := numbered_run (fun _ h => by contradiction) hbefore
      exact ⟨d,hd,hv,fun d' hd' => hv ▸ Nat.lt_of_le_of_lt (hnumbered d' hd') hlt⟩
  · intro hfit hinj t fs b hc hmax hb s alone
    have hcons := consistent_run p space ho
    have hstaged := Pipeline.isStaged_of_build (ho _ hc) hb
    have halone : alone.Presents b.staged :=
      presents_commit p space [] (fun _ h => by contradiction) hstaged (fun _ h => by contradiction)
        (fun m hm => List.mem_flatMap.2 ⟨_,hc,by rwa [SessionCall.staged_apply hb]⟩) hfit hinj
    have hsound : alone.Sound := (Registry.sound_empty space).commit hstaged.nodup_paths
    -- All earlier results have lower tickets and all later ones come too late.
    obtain ⟨hf,herror⟩ : s.fingerprint = some b.fingerprint ∧ s.lastError = none := by
      obtain ⟨before,after,rfl⟩ := List.append_of_mem hc
      have htickets : tickets (before ++ .apply t fs :: after) = tickets before ++ t :: tickets after :=
        List.filterMap_append
      rw [htickets] at hn hmax
      obtain ⟨hbefore,hafter⟩ := List.forall_mem_append.1 hmax
      refine fingerprint_of_latest p space hpass ho (fun t' ht' => ?_) (List.forall_mem_cons.1 hafter).2 hb
      refine Nat.lt_of_le_of_ne (hbefore t' ht') fun heq => ?_
      exact (List.nodup_append.1 hn).2.2 t' ht' t List.mem_cons_self heq
    have hpresents : s.registry.Presents b.staged := presents_of_fingerprint p space ho hfit hinj hc hb hf
    have hmap : s.importMap = ImportMap.build s.registry p.redirects := by
      cases hd : s.document with
      | some d => exact (hcons.shows d hd).1
      | none =>
        have hempty : b.staged.paths = [] := by
          rw [← hpresents.paths,hcons.idle hd]
          rfl
        have hentry := (Pipeline.of_build hb).2.2
        rw [hempty] at hentry
        contradiction
    have hnames : ImportMap.SameNames s.registry alone :=
      (hpresents.names_eq hcons.sound).trans (halone.names_eq hsound).symm
    refine ⟨hf,herror,hpresents,halone,?_,halone.exists_renaming hpresents hsound hcons.sound hstaged⟩
    rw [hmap]
    exact hnames.keys_build p.redirects

/-- The first pass finds no files, and its error comes after the build of the second one. -/
theorem latest_result_wins_of_late_pass :
    let p : Pipeline := {}
    let fs : FileSet := [("/App.js",.file "")]
    let before : List SessionCall := [.request,.request,.apply 2 fs]
    let s := (empty p "preview").run (before ++ [.apply 1 []])
    (((empty p "preview").run before).apply 1 (p.build [])).1 = .stale ∧
    s = (empty p "preview").run before ∧
    ∃ b, p.build fs = .ok b ∧ s.fingerprint = some b.fingerprint ∧ s.lastError = none ∧
      let alone := ((Registry.empty "preview").commit b.staged).1
      s.registry.Presents b.staged ∧ alone.Presents b.staged ∧
      s.importMap.imports.keys = (ImportMap.build alone p.redirects).imports.keys ∧
      ∃ rename, Registry.Readdresses rename alone s.registry ∧ ∀ m ∈ b.staged,
        s.registry.targets m.template.links.modules = (alone.targets m.template.links.modules).map rename := by
  intro p fs before
  have hfs : OrderedMap.IsOrdered fs := by decide +kernel
  have ho : ∀ c ∈ before ++ [.apply 1 []], c.IsOrdered := by
    simp only [before,List.cons_append,List.nil_append,List.forall_mem_cons]
    exact ⟨trivial,trivial,hfs,List.Pairwise.nil,fun _ h => absurd h List.not_mem_nil⟩
  have hpasses : SessionCall.ArePasses 0 (before ++ [.apply 1 []]) :=
    ⟨by decide,by decide,by decide,by decide,trivial⟩
  have hfit : ∀ c ∈ before ++ [.apply 1 []], c.Fits p := by decide +kernel
  have hinj : Blake3.NoCollision (hashedAlong p (before ++ [.apply 1 []])) :=
    Blake3.noCollision_of_nodup (by decide +kernel)
  obtain ⟨b,hb⟩ : ∃ b, p.build fs = .ok b := by
    cases hb : p.build fs with
    | ok b => exact ⟨b,rfl⟩
    | error e => exact absurd (show (p.build fs).isOk = true by decide +kernel) (by simp [hb,Except.isOk,Except.toBool])
  obtain ⟨horder,hlatest⟩ := latest_result_wins p "preview" (before ++ [.apply 1 []]) hpasses (by decide) ho
  obtain ⟨hstale,hkeep,-⟩ := horder before 1 [] [] rfl
  have hlate : (((empty p "preview").run before).apply 1 (p.build [])).1 = .stale := by
    refine Decidable.not_not.1 fun h => ?_
    exact absurd (hstale.1 h 2 (by decide)) (by decide)
  have hmem : .apply 2 fs ∈ before ++ [.apply 1 []] := List.mem_append_left _ (by simp [before])
  have hmax : ∀ t' ∈ tickets (before ++ [.apply 1 []]), t' ≤ 2 := by decide
  have hwins := hlatest hfit hinj 2 fs b hmem hmax hb
  have hrun : (empty p "preview").run (before ++ [.apply 1 []]) =
      ((empty p "preview").run before).call (.apply 1 []) := List.foldl_append
  have hsame := hrun.trans (hkeep hlate)
  dsimp only at hwins ⊢
  exact ⟨hlate,hsame,b,hb,hwins⟩

end PreviewSession

end PreviewCompiler
