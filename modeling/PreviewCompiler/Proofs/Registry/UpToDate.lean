import PreviewCompiler.Proofs.Hash.Fingerprint
import PreviewCompiler.Proofs.Registry.Run
import Mathlib.Data.List.Induction

namespace PreviewCompiler

open Data

namespace StagedModule

/-- What the hash of a template is the fingerprint of. -/
def entries (m : StagedModule) : List (String × List UInt8) :=
  ("template",textBytes m.template.text) :: m.template.links.modules.map fun d => ("dep",textBytes d)

/-- The bytes that are hashed for a template. -/
def hashInput (m : StagedModule) : List UInt8 := Fingerprint.encode m.entries

/-- Are the texts that are hashed for a template shorter than `2 ^ 64` bytes, as all are that a memory can hold? -/
def Fits (m : StagedModule) : Prop := ∀ e ∈ m.entries, Fingerprint.Fits e.2

instance (m : StagedModule) : Decidable m.Fits := inferInstanceAs (Decidable (∀ e ∈ m.entries, _))

theorem templateHash_of_eq_ofTemplate {m : StagedModule} (h : m = .ofTemplate m.template) :
    m.templateHash = Blake3.hash m.hashInput := by
  rw [h,ofTemplate,Fingerprint.ofTexts,Fingerprint.ofEntries,hashInput,entries,List.map_cons,List.map_map]
  rfl

theorem Fits.entries_fit {m : StagedModule} (h : m.Fits) :
    ∀ e ∈ m.entries, Fingerprint.Fits (textBytes e.1) ∧ Fingerprint.Fits e.2 := by
  intro e he
  refine ⟨?_,h e he⟩
  rcases List.mem_cons.1 he with rfl | he
  · exact (by decide : Fingerprint.Fits (textBytes "template"))
  · obtain ⟨d,-,rfl⟩ := List.mem_map.1 he
    exact (by decide : Fingerprint.Fits (textBytes "dep"))

/-- What is hashed for a template tells its text and what it imports. -/
theorem Fits.template_eq {m m' : StagedModule} (h : m.Fits) (h' : m'.Fits) (heq : m.hashInput = m'.hashInput) :
    m.template.text = m'.template.text ∧ m.template.links.modules = m'.template.links.modules := by
  obtain ⟨htext,hdeps⟩ := List.cons.inj (Fingerprint.encode_injective h.entries_fit h'.entries_fit heq)
  refine ⟨textBytes_injective (Prod.mk.inj htext).2,?_⟩
  exact List.map_injective_iff.2 (fun d d' hd => textBytes_injective (Prod.mk.inj hd).2) hdeps

end StagedModule

namespace Registry

/-- Do different inputs that are hashed for some templates have different hashes? -/
def NoCollision (seen : List StagedModule) : Prop :=
  ∀ m ∈ seen, ∀ m' ∈ seen, Blake3.hash m.hashInput = Blake3.hash m'.hashInput → m.hashInput = m'.hashInput

/-- Is a module the template of a staged one, with the references that its imports had?  Those that are
registered still have them. -/
structure BuiltFrom (r : Registry) (m : StagedModule) (c : CompiledModule) : Prop where
  hash : c.templateHash = m.templateHash
  imports : c.links.modules = m.template.links.modules
  code : ∃ address : String → String,
    c.code = substitute m.template.text (m.template.links.modules.map address) ∧
    ∀ d ∈ m.template.links.modules, ∀ ref, r.reference? d = some ref → address d = ref.text

/-- Is each module built from one of `seen`? -/
def UpToDate (seen : List StagedModule) (r : Registry) : Prop :=
  ∀ path c, r.module? path = some c → ∃ m ∈ seen, r.BuiltFrom m c

variable {r r' : Registry} {seen : List StagedModule} {staged : StagedBuild}

theorem BuiltFrom.mono {m : StagedModule} {c : CompiledModule} (h : r.BuiltFrom m c)
    (hr : ∀ d ∈ m.template.links.modules, ∀ ref, r'.reference? d = some ref → r.reference? d = some ref) :
    r'.BuiltFrom m c := by
  obtain ⟨address,hcode,haddress⟩ := h.code
  exact ⟨h.hash,h.imports,address,hcode,fun d hd ref href => haddress d hd ref (hr d hd ref href)⟩

theorem upToDate_empty (space : String) : (empty space).UpToDate [] := fun _ _ h => by contradiction

theorem UpToDate.mono {seen' : List StagedModule} (h : r.UpToDate seen) (hs : ∀ m ∈ seen, m ∈ seen') :
    r.UpToDate seen' := by
  intro path c hc
  obtain ⟨m,hm,hbuilt⟩ := h path c hc
  exact ⟨m,hs m hm,hbuilt⟩

/-- Taking modules away does no harm. -/
theorem UpToDate.of_subset (h : r.UpToDate seen)
    (hr : ∀ path c, r'.module? path = some c → r.module? path = some c) : r'.UpToDate seen := by
  intro path c hc
  obtain ⟨m,hm,hbuilt⟩ := h path c (hr path c hc)
  refine ⟨m,hm,hbuilt.mono fun d _ ref href => ?_⟩
  obtain ⟨old,hold,rfl⟩ := Option.map_eq_some_iff.1 href
  exact congrArg (Option.map CompiledModule.reference) (hr d old hold)

theorem UpToDate.release {path : String} (h : r.UpToDate seen) (hr : r.release path = some r') :
    r'.UpToDate seen := by
  refine h.of_subset fun p c hc => ?_
  rw [module?_of_release hr] at hc
  split at hc
  · contradiction
  · exact hc

/-- A module that has been registered anew has the references of after the commit. -/
theorem builtFrom_commit_of_changed {m : StagedModule} (h : r.Sound) (hn : staged.paths.Nodup)
    (hm : m ∈ staged) (hc : m.path ∈ r.changedPaths staged) :
    ∃ c, (r.commit staged).1.module? m.path = some c ∧ (r.commit staged).1.BuiltFrom m c := by
  obtain ⟨ref,hmod⟩ := module?_commit_of_changed h hn hm hc
  refine ⟨_,hmod,rfl,rfl,_,rfl,fun d _ ref' href => ?_⟩
  rw [href]
  rfl

/-- What a module imports that has been left alone has been left alone too. -/
theorem reference?_commit_of_unchanged {m : StagedModule} {d : String} (h : r.Sound) (hs : staged.IsStaged)
    (hm : m ∈ staged) (hc : m.path ∉ r.changedPaths staged) (hd : d ∈ m.template.links.modules) :
    ∃ ref, (r.commit staged).1.reference? d = some ref ∧ r.reference? d = some ref := by
  obtain ⟨m',hm',rfl⟩ := StagedBuild.mem_paths.1 (hs.mem_paths_of_link hm hd)
  have hc' : m'.path ∉ r.changedPaths staged := fun hp =>
    hc (changedPaths_closed hm hp (List.contains_iff_mem.2 hd))
  obtain ⟨old,hold,hnew,-,-⟩ := module?_commit_of_unchanged h hs.nodup_paths hm' hc'
  exact ⟨old.reference,congrArg (Option.map CompiledModule.reference) hnew,
    congrArg (Option.map CompiledModule.reference) hold⟩

/-- After a commit every staged module is registered, built from what is staged. -/
theorem UpToDate.builtFrom_commit {m : StagedModule} (h : r.UpToDate seen) (hr : r.Sound)
    (hs : staged.IsStaged) (hseen : ∀ m ∈ seen, m = .ofTemplate m.template)
    (hfit : ∀ m ∈ seen ++ staged, m.Fits) (hinj : NoCollision (seen ++ staged)) (hm : m ∈ staged) :
    ∃ c, (r.commit staged).1.module? m.path = some c ∧ (r.commit staged).1.BuiltFrom m c := by
  by_cases hc : m.path ∈ r.changedPaths staged
  · exact builtFrom_commit_of_changed hr hs.nodup_paths hm hc
  -- The entry is that of an older module with the same template, and what it imports has kept its references.
  · obtain ⟨old,hold,hnew,-,htemplate⟩ := module?_commit_of_unchanged hr hs.nodup_paths hm hc
    obtain ⟨m₀,hm₀,hbuilt⟩ := h m.path old hold
    have hin : m ∈ seen ++ staged := List.mem_append_right _ hm
    have hin₀ : m₀ ∈ seen ++ staged := List.mem_append_left _ hm₀
    have hhash : Blake3.hash m₀.hashInput = Blake3.hash m.hashInput := by
      rw [← StagedModule.templateHash_of_eq_ofTemplate (hseen m₀ hm₀),
        ← StagedModule.templateHash_of_eq_ofTemplate (hs.eq_ofTemplate hm),← hbuilt.hash,htemplate]
    obtain ⟨htext,hdeps⟩ := (hfit m₀ hin₀).template_eq (hfit m hin) (hinj m₀ hin₀ m hin hhash)
    obtain ⟨address,hcode,haddress⟩ := hbuilt.code
    rw [htext,hdeps] at hcode
    rw [hdeps] at haddress
    refine ⟨old,hnew,htemplate,hbuilt.imports.trans hdeps,address,hcode,fun d hd ref href => ?_⟩
    obtain ⟨ref',hafter,hbefore⟩ := reference?_commit_of_unchanged hr hs hm hc hd
    obtain rfl : ref' = ref := Option.some.inj (hafter.symm.trans href)
    exact haddress d hd ref' hbefore

/-- After a commit every registered module is built from one that is staged. -/
theorem UpToDate.exists_builtFrom_commit {path : String} {c : CompiledModule} (h : r.UpToDate seen)
    (hr : r.Sound) (hs : staged.IsStaged) (hseen : ∀ m ∈ seen, m = .ofTemplate m.template)
    (hfit : ∀ m ∈ seen ++ staged, m.Fits) (hinj : NoCollision (seen ++ staged))
    (hc : (r.commit staged).1.module? path = some c) :
    ∃ m ∈ staged, (r.commit staged).1.BuiltFrom m c := by
  have hp : path ∈ staged.paths := (contains_commit hr hs.nodup_paths).1 (congrArg Option.isSome hc)
  obtain ⟨m,hm,rfl⟩ := StagedBuild.mem_paths.1 hp
  obtain ⟨c',hc',hbuilt⟩ := h.builtFrom_commit hr hs hseen hfit hinj hm
  obtain rfl : c' = c := Option.some.inj (hc'.symm.trans hc)
  exact ⟨m,hm,hbuilt⟩

theorem UpToDate.commit (h : r.UpToDate seen) (hr : r.Sound) (hs : staged.IsStaged)
    (hseen : ∀ m ∈ seen, m = .ofTemplate m.template) (hfit : ∀ m ∈ seen ++ staged, m.Fits)
    (hinj : NoCollision (seen ++ staged)) : (r.commit staged).1.UpToDate (seen ++ staged) := by
  intro path c hc
  obtain ⟨m,hm,hbuilt⟩ := h.exists_builtFrom_commit hr hs hseen hfit hinj hc
  exact ⟨m,List.mem_append_right _ hm,hbuilt⟩

/-- Is all that a module imports registered? -/
def IsClosed (r : Registry) : Prop :=
  ∀ path c, r.module? path = some c → ∀ d ∈ c.links.modules, r.contains d = true

theorem UpToDate.isClosed_commit (h : r.UpToDate seen) (hr : r.Sound) (hs : staged.IsStaged)
    (hseen : ∀ m ∈ seen, m = .ofTemplate m.template) (hfit : ∀ m ∈ seen ++ staged, m.Fits)
    (hinj : NoCollision (seen ++ staged)) : (r.commit staged).1.IsClosed := by
  intro path c hc d hd
  obtain ⟨m,hm,hbuilt⟩ := h.exists_builtFrom_commit hr hs hseen hfit hinj hc
  exact (contains_commit hr hs.nodup_paths).2 (hs.mem_paths_of_link hm (hbuilt.imports ▸ hd))

/-- All modules that are staged along a run. -/
def stagedAlong (calls : List RegistryCall) : List StagedModule :=
  calls.flatMap fun
    | .commit staged => staged
    | .release _ | .releaseAll => []

theorem eq_ofTemplate_of_stagedAlong {calls : List RegistryCall} (hcalls : ∀ c ∈ calls, c.IsStaged)
    {m : StagedModule} (hm : m ∈ stagedAlong calls) : m = .ofTemplate m.template := by
  obtain ⟨c,hc,hmc⟩ := List.mem_flatMap.1 hm
  cases c with
  | commit staged => exact StagedBuild.IsStaged.eq_ofTemplate (hcalls _ hc) hmc
  | release path => contradiction
  | releaseAll => contradiction

theorem NoCollision.subset {seen' : List StagedModule} (h : NoCollision seen) (hs : ∀ m ∈ seen', m ∈ seen) :
    NoCollision seen' := fun m hm m' hm' => h m (hs m hm) m' (hs m' hm')

theorem UpToDate.call {c : RegistryCall} (h : r.UpToDate seen) (hr : r.Sound) (hc : c.IsStaged)
    (hseen : ∀ m ∈ seen, m = .ofTemplate m.template) (hfit : ∀ m ∈ seen ++ stagedAlong [c], m.Fits)
    (hinj : NoCollision (seen ++ stagedAlong [c])) : (r.call c).UpToDate (seen ++ stagedAlong [c]) := by
  have hstay : r.UpToDate (seen ++ stagedAlong [c]) := h.mono fun m hm => List.mem_append_left _ hm
  cases c with
  | commit staged =>
    have heq : stagedAlong [.commit staged] = staged := List.append_nil _
    rw [heq] at hfit hinj ⊢
    exact h.commit hr hc hseen hfit hinj
  | release path =>
    cases hp : r.release path with
    | some r' =>
      simp only [Registry.call,hp]
      exact hstay.release hp
    | none =>
      simp only [Registry.call,hp]
      exact hstay
  | releaseAll => exact fun _ _ hm => by contradiction

theorem upToDate_run (space : String) {calls : List RegistryCall} (hcalls : ∀ c ∈ calls, c.IsStaged)
    (hfit : ∀ m ∈ stagedAlong calls, m.Fits) (hinj : NoCollision (stagedAlong calls)) :
    ((empty space).run calls).UpToDate (stagedAlong calls) := by
  induction calls using List.reverseRecOn with
  | nil => exact upToDate_empty space
  | append_singleton calls c ih =>
    have hs : stagedAlong (calls ++ [c]) = stagedAlong calls ++ stagedAlong [c] := List.flatMap_append
    have hbefore : ∀ c' ∈ calls, c'.IsStaged := fun c' hc' => hcalls c' (List.mem_append_left _ hc')
    rw [hs] at hfit hinj ⊢
    have hup := ih hbefore (fun m hm => hfit m (List.mem_append_left _ hm))
      (hinj.subset fun m hm => List.mem_append_left _ hm)
    have hlast := hcalls c (List.mem_append_right _ List.mem_cons_self)
    rw [show (empty space).run (calls ++ [c]) = ((empty space).run calls).call c from List.foldl_append]
    exact hup.call ((sound_empty space).run hbefore) hlast
      (fun m hm => eq_ofTemplate_of_stagedAlong hbefore hm) hfit hinj

/-- After a commit the registered modules are the staged ones, whatever has been done before.  The code of each,
which its reference leads to, is its template with the references that its imports are registered with. -/
theorem commit_after_run (space : String) (calls : List RegistryCall) (staged : StagedBuild)
    (hcalls : ∀ c ∈ calls, c.IsStaged) (hstaged : staged.IsStaged)
    (hfit : ∀ m ∈ stagedAlong calls ++ staged, m.Fits) (hinj : NoCollision (stagedAlong calls ++ staged)) :
    let r := (((empty space).run calls).commit staged).1
    (∀ path, r.contains path = true ↔ path ∈ staged.paths) ∧
    ∀ m ∈ staged, ∃ c, r.module? m.path = some c ∧ c.links.modules = m.template.links.modules ∧
      (∀ d ∈ c.links.modules, r.contains d = true) ∧
      c.code = substitute m.template.text (r.targets c.links.modules) ∧
      r.dereference c.reference.text = some c.code := by
  intro r
  have hsound : ((empty space).run calls).Sound := (sound_empty space).run hcalls
  have hsound' : r.Sound := hsound.commit hstaged.nodup_paths
  have hseen : ∀ m ∈ stagedAlong calls, m = .ofTemplate m.template := fun m hm =>
    eq_ofTemplate_of_stagedAlong hcalls hm
  have hup := upToDate_run space hcalls (fun m hm => hfit m (List.mem_append_left _ hm))
    (hinj.subset fun m hm => List.mem_append_left _ hm)
  refine ⟨fun path => contains_commit hsound hstaged.nodup_paths,fun m hm => ?_⟩
  obtain ⟨c,hc,hbuilt⟩ := hup.builtFrom_commit hsound hstaged hseen hfit hinj hm
  obtain ⟨address,hcode,haddress⟩ := hbuilt.code
  have hdeps : ∀ d ∈ c.links.modules, r.contains d = true :=
    hup.isClosed_commit hsound hstaged hseen hfit hinj m.path c hc
  refine ⟨c,hc,hbuilt.imports,hdeps,?_,hsound'.dereference hc⟩
  rw [hcode,← hbuilt.imports]
  refine congrArg _ (List.map_congr_left fun d hd => ?_)
  obtain ⟨old,hold⟩ := Option.isSome_iff_exists.1 (hdeps d hd)
  have href : r.reference? d = some old.reference := congrArg (Option.map CompiledModule.reference) hold
  rw [href,haddress d (hbuilt.imports ▸ hd) _ href]
  rfl

/-- A module that imports itself is released, so that the code of the one that imports it has to change too. -/
theorem commit_after_run_of_cycle :
    let staged : StagedBuild := (FileSet.stage
      [("/a.js",.file "import './b.js'"),("/b.js",.file "import './b.js'")] {} {}).toOption.getD []
    let r := (((empty "preview").run [.commit staged,.release "/b.js"]).commit staged).1
    (∀ path, r.contains path = true ↔ path ∈ staged.paths) ∧
    ∀ m ∈ staged, ∃ c, r.module? m.path = some c ∧ c.links.modules = m.template.links.modules ∧
      (∀ d ∈ c.links.modules, r.contains d = true) ∧
      c.code = substitute m.template.text (r.targets c.links.modules) ∧
      r.dereference c.reference.text = some c.code := by
  intro staged
  have hstaged : staged.IsStaged := StagedBuild.isStaged_of_isOk (by decide +kernel) (by decide +kernel)
  have hfit : ∀ m ∈ staged, m.Fits := by decide +kernel
  have hsame : ∀ m ∈ staged, ∀ m' ∈ staged, m.hashInput = m'.hashInput := by decide +kernel
  have hinj : NoCollision staged := fun m hm m' hm' _ => hsame m hm m' hm'
  have hseen : ∀ m ∈ stagedAlong [.commit staged,.release "/b.js"] ++ staged, m ∈ staged := by
    intro m hm
    simpa [stagedAlong] using hm
  refine commit_after_run "preview" [.commit staged,.release "/b.js"] staged ?_ hstaged
    (fun m hm => hfit m (hseen m hm)) (hinj.subset hseen)
  simp only [List.forall_mem_cons]
  exact ⟨hstaged,trivial,fun _ hm => absurd hm List.not_mem_nil⟩

end Registry

end PreviewCompiler
