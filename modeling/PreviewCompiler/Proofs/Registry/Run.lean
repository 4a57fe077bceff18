import PreviewCompiler.Proofs.Compile.Links
import PreviewCompiler.Proofs.Registry.Commit

namespace PreviewCompiler

open Data

/-- What the owner of a registry can ask of it. -/
inductive RegistryCall where
  | commit (staged : StagedBuild)
  | release (path : String)
  | releaseAll
  deriving DecidableEq, Repr

/-- Is a build that is committed one that some snapshot is compiled to? -/
def RegistryCall.IsStaged : RegistryCall → Prop
  | commit staged => staged.IsStaged
  | release _ | releaseAll => True

namespace Registry

def releaseTrace (r : Registry) (path : String) : List BlobCall :=
  match r.module? path with
  | some m => [.release m.reference]
  | none => []

theorem blobs_of_release {r r' : Registry} {path : String} (h : r.release path = some r') :
    r'.blobs = r.blobs.run (r.releaseTrace path) := by
  obtain ⟨m,hm,rfl⟩ := Option.map_eq_some_iff.1 h
  simp only [releaseTrace,hm]
  rfl

theorem releaseTrace_of_none {r : Registry} {path : String} (h : r.release path = none) :
    r.releaseTrace path = [] := by
  have hm : r.module? path = none := Option.map_eq_none_iff.1 h
  simp only [releaseTrace,hm]

end Registry

namespace Commit

/-- The calls along some steps of a commit, `trace` being those of one step. -/
def foldTrace {α : Type} (step : Commit → α → Commit) (trace : Commit → α → List BlobCall) :
    Commit → List α → List BlobCall
  | _, [] => []
  | c, a :: as => trace c a ++ foldTrace step trace (step c a) as

def releaseTrace (c : Commit) (path : String) : List BlobCall := c.registry.releaseTrace path

def referTrace (c : Commit) (m : StagedModule) : List BlobCall :=
  if c.registry.contains m.path then [] else [.allocate]

def registerTrace (c : Commit) (m : StagedModule) : List BlobCall :=
  if c.registry.contains m.path then []
  else
    match OrderedMap.find? m.path c.references with
    | some ref => [.bind ref (c.finalCode m.template)]
    | none => []

theorem blobs_foldl {α : Type} {step : Commit → α → Commit} {trace : Commit → α → List BlobCall}
    (h : ∀ c a, (step c a).registry.blobs = c.registry.blobs.run (trace c a)) (c : Commit) (as : List α) :
    (as.foldl step c).registry.blobs = c.registry.blobs.run (foldTrace step trace c as) := by
  induction as generalizing c with
  | nil => rfl
  | cons a as ih => rw [List.foldl_cons,ih,h,foldTrace,BlobStore.run_append]

theorem blobs_release (c : Commit) (path : String) :
    (c.release path).registry.blobs = c.registry.blobs.run (c.releaseTrace path) := by
  unfold release
  split
  · exact Registry.blobs_of_release (by assumption)
  · rw [releaseTrace,Registry.releaseTrace_of_none (by assumption)]
    rfl

theorem blobs_refer (c : Commit) (m : StagedModule) :
    (c.refer m).registry.blobs = c.registry.blobs.run (c.referTrace m) := by
  cases hm : c.registry.module? m.path with
  | some old =>
    have hc : c.registry.contains m.path = true := congrArg Option.isSome hm
    simp only [refer,referTrace,hm,hc]
    rfl
  | none =>
    have hc : c.registry.contains m.path = false := congrArg Option.isSome hm
    simp only [refer,referTrace,hm,hc]
    rfl

theorem blobs_register (c : Commit) (m : StagedModule) :
    (c.register m).registry.blobs = c.registry.blobs.run (c.registerTrace m) := by
  unfold register registerTrace
  split
  · rfl
  · split <;> simp only [*] <;> rfl

end Commit

namespace Registry

variable {r : Registry}

/-- What the store is asked for by a commit. -/
def commitTrace (r : Registry) (staged : StagedBuild) : List BlobCall :=
  Commit.foldTrace Commit.release Commit.releaseTrace { registry := r } (r.absentPaths staged)
    ++ Commit.foldTrace Commit.release Commit.releaseTrace (r.trimmed staged)
      ((r.trimmed staged).registry.changedPaths staged)
    ++ Commit.foldTrace Commit.refer Commit.referTrace (r.cleared staged) staged
    ++ Commit.foldTrace Commit.register Commit.registerTrace (r.referred staged) staged

theorem blobs_commit (r : Registry) (staged : StagedBuild) :
    (r.commit staged).1.blobs = r.blobs.run (r.commitTrace staged) := by
  rw [commit_eq,commitTrace,BlobStore.run_append,BlobStore.run_append,BlobStore.run_append,
    Commit.blobs_foldl Commit.blobs_register,referred,Commit.blobs_foldl Commit.blobs_refer,cleared,
    Commit.blobs_foldl Commit.blobs_release,registry_trimmed,Commit.blobs_foldl Commit.blobs_release]

def call (r : Registry) : RegistryCall → Registry
  | .commit staged => (r.commit staged).1
  | .release path => (r.release path).getD r
  | .releaseAll => r.releaseAll

/-- The registry after some calls. -/
def run (r : Registry) (calls : List RegistryCall) : Registry := calls.foldl call r

def callTrace (r : Registry) : RegistryCall → List BlobCall
  | .commit staged => r.commitTrace staged
  | .release path => r.releaseTrace path
  | .releaseAll => [.releaseAll]

/-- What the store is asked for along a run. -/
def trace : Registry → List RegistryCall → List BlobCall
  | _, [] => []
  | r, c :: cs => r.callTrace c ++ trace (r.call c) cs

theorem blobs_call (r : Registry) (c : RegistryCall) : (r.call c).blobs = r.blobs.run (r.callTrace c) := by
  cases c with
  | commit staged => exact r.blobs_commit staged
  | release path =>
    cases hr : r.release path with
    | some r' =>
      simp only [call,hr]
      exact blobs_of_release hr
    | none =>
      simp only [call,hr,callTrace,releaseTrace_of_none hr]
      rfl
  | releaseAll => rfl

theorem blobs_run (r : Registry) (calls : List RegistryCall) :
    (r.run calls).blobs = r.blobs.run (r.trace calls) := by
  induction calls generalizing r with
  | nil => rfl
  | cons c calls ih =>
    rw [trace,BlobStore.run_append,← blobs_call]
    exact ih (r.call c)

theorem Sound.call {c : RegistryCall} (h : r.Sound) (hc : c.IsStaged) : (r.call c).Sound := by
  cases c with
  | commit staged => exact h.commit hc.nodup_paths
  | release path =>
    cases hr : r.release path with
    | some r' =>
      simp only [Registry.call,hr]
      exact h.release hr
    | none =>
      simp only [Registry.call,hr]
      exact h
  | releaseAll => exact h.releaseAll

theorem Sound.run {calls : List RegistryCall} (h : r.Sound) (hcalls : ∀ c ∈ calls, c.IsStaged) :
    (r.run calls).Sound := by
  induction calls generalizing r with
  | nil => exact h
  | cons c calls ih =>
    obtain ⟨hc,hrest⟩ := List.forall_mem_cons.1 hcalls
    exact ih (h.call hc) hrest

/-- A reference is given out once.  The code behind it stays as long as it is live, and once it is not live any
more it never is again.  The live references are those of the modules, each with the code of its module, and no
two addresses are the same. -/
theorem run_references (space : String) (calls : List RegistryCall) (hcalls : ∀ c ∈ calls, c.IsStaged) :
    let store : BlobStore := { space }
    let trace := (empty space).trace calls
    let r := (empty space).run calls
    r.blobs = store.run trace ∧
    ((store.handedOut trace).map Reference.text).Nodup ∧
    (∀ before between after, trace = before ++ between ++ after →
      let b := store.run before
      let b' := store.run (before ++ between)
      let b'' := store.run (before ++ between ++ after)
      (∀ a code, b.get? a = some code → b'.get? a = some code ∨ a ∉ b'.live.keys) ∧
      (∀ a ∈ b.live.keys, a ∉ b'.live.keys → a ∉ b''.live.keys ∧ b''.get? a = none)) ∧
    r.blobs.live.keys.Perm (r.modules.map (·.2.reference.text)) ∧
    (r.modules.map (·.2.reference.text)).Nodup ∧
    (∀ e ∈ r.modules, r.dereference e.2.reference.text = some e.2.code) ∧
    (∀ a ∈ r.blobs.live.keys, ∃ code, r.dereference a = some code) ∧
    r.stats.minted = r.stats.live + r.stats.released ∧
    (∀ s t : Reference, s.space ≠ t.space ∨ s.id ≠ t.id → s.text ≠ t.text) := by
  intro store trace r
  have hsound : r.Sound := (sound_empty space).run hcalls
  have hkeys : r.blobs.live.keys.Perm (r.modules.map (·.2.reference.text)) := by
    simpa [bound,OrderedMap.keys,Function.comp_def] using hsound.live_perm.map Prod.fst
  have hcode : ∀ e ∈ r.modules, r.dereference e.2.reference.text = some e.2.code := fun e he =>
    hsound.dereference ((OrderedMap.find?_eq_some_iff hsound.ordered).2 he)
  refine ⟨(empty space).blobs_run calls,store.nodup_handedOut trace,?_,hkeys,hsound.nodup_references,hcode,?_,
    hsound.valid.counted,?_⟩
  · intro before between after _ b b' b''
    have hb : b.Valid := (BlobStore.valid_empty space).run before
    have hbb' : b.Evolves b' := by
      change b.Evolves (store.run (before ++ between))
      rw [BlobStore.run_append]
      exact b.evolves_run between
    have hbb'' : b'.Evolves b'' := by
      change b'.Evolves (store.run (before ++ between ++ after))
      rw [BlobStore.run_append]
      exact b'.evolves_run after
    refine ⟨fun a code ha => hbb'.get?_or_gone hb ha,fun a ha ha' => ?_⟩
    have hgone := hbb'.not_mem_keys hbb'' hb ha ha'
    exact ⟨hgone,BlobStore.get?_eq_none_of_not_mem hgone⟩
  · intro a ha
    obtain ⟨e,he,rfl⟩ := List.mem_map.1 (hkeys.mem_iff.1 ha)
    exact ⟨e.2.code,hcode e he⟩
  · intro s t hst heq
    obtain rfl := Reference.text_injective heq
    exact hst.elim (fun h => h rfl) (fun h => h rfl)

/-- Two modules that import each other, one of which is released between two commits. -/
theorem run_references_of_cycle :
    let staged : StagedBuild := (FileSet.stage
      [("/a.js",.file "import './b.js'"),("/b.js",.file "import './a.js'")] {} {}).toOption.getD []
    let r := (empty "preview").run [.commit staged,.release "/b.js",.commit staged]
    r.blobs.live.keys.Perm (r.modules.map (·.2.reference.text)) ∧
    (∀ e ∈ r.modules, r.dereference e.2.reference.text = some e.2.code) ∧
    r.stats.minted = r.stats.live + r.stats.released := by
  intro staged
  have hstaged : staged.IsStaged := StagedBuild.isStaged_of_isOk (by decide +kernel) (by decide +kernel)
  have h := run_references "preview" [.commit staged,.release "/b.js",.commit staged] (by
    simp only [List.forall_mem_cons]
    exact ⟨hstaged,trivial,hstaged,fun _ hm => absurd hm List.not_mem_nil⟩)
  exact ⟨h.2.2.2.1,h.2.2.2.2.2.1,h.2.2.2.2.2.2.2.1⟩

end Registry

end PreviewCompiler
