import PreviewCompiler.Proofs.Compile.Packages
import PreviewCompiler.Proofs.Data.OrderedMap
import PreviewCompiler.Proofs.Registry.Minting
import PreviewCompiler.Proofs.Registry.Origin
import PreviewCompiler.Proofs.Registry.UpToDate
import Mathlib.Data.List.Sort

namespace PreviewCompiler

open Data

theorem Links.eq_of_parts {links links' : Links} (hmodules : links.modules = links'.modules)
    (hpackages : links.packages = links'.packages) : links = links' := by
  cases links
  cases links'
  cases hmodules
  cases hpackages
  rfl

/-- Is a staged module compiled with the markup runtime of some options, from a text whose bytes are among `inputs`? -/
def StagedModule.CompiledFrom (options : TransformOptions) (inputs : List (List UInt8)) (m : StagedModule) : Prop :=
  ∃ (fs : FileSet) (redirects : Redirects) (options' : TransformOptions) (text : String),
    Template.compile fs redirects options' m.path text = .ok m.template ∧ options'.runtime = options.runtime ∧
    options'.importSource = options.importSource ∧ textBytes text ∈ inputs

theorem FileSet.compiledFrom_of_stage {fs : FileSet} {redirects : Redirects} {options : TransformOptions}
    {inputs : List (List UInt8)} {b : StagedBuild} (h : fs.stage redirects options = .ok b)
    (hin : ∀ f ∈ fs.modules, textBytes f.2 ∈ inputs) : ∀ m ∈ b, m.CompiledFrom options inputs := by
  intro m hm
  obtain ⟨f,hf,hcompile,-⟩ := exists_of_mem_stage h hm
  obtain ⟨hpath,-⟩ := Template.of_compile hcompile
  rw [← hpath] at hcompile
  exact ⟨fs,redirects,options,f.2,hcompile,rfl,rfl,hin f hf⟩

/-- Is a module registered with the hashes and the links of a staged one? -/
structure CompiledModule.StemsFrom (m : StagedModule) (c : CompiledModule) : Prop where
  source : c.sourceHash = m.template.sourceHash
  hash : c.templateHash = m.templateHash
  links : c.links = m.template.links

namespace Registry

variable {r r' : Registry} {seen : List StagedModule} {staged : StagedBuild}

/-- Does each entry stem from one of `seen` at its path? -/
def ComesFrom (seen : List StagedModule) (r : Registry) : Prop :=
  ∀ path c, r.module? path = some c → ∃ m ∈ seen, m.path = path ∧ c.StemsFrom m

theorem comesFrom_empty (space : String) : (empty space).ComesFrom [] := fun _ _ h => by contradiction

theorem ComesFrom.mono {seen' : List StagedModule} (h : r.ComesFrom seen) (hs : ∀ m ∈ seen, m ∈ seen') :
    r.ComesFrom seen' := by
  intro path c hc
  obtain ⟨m,hm,hstems⟩ := h path c hc
  exact ⟨m,hs m hm,hstems⟩

theorem ComesFrom.commit (h : r.ComesFrom seen) (hr : r.Sound) (hn : staged.paths.Nodup) :
    (r.commit staged).1.ComesFrom (seen ++ staged) := by
  intro path c hc
  have hp : path ∈ staged.paths := (contains_commit hr hn).1 (congrArg Option.isSome hc)
  obtain ⟨m,hm,rfl⟩ := StagedBuild.mem_paths.1 hp
  obtain ⟨ref,rfl⟩ | ⟨-,hold,-⟩ := module?_commit_cases hr hn hm hc
  · exact ⟨m,List.mem_append_right _ hm,rfl,rfl,rfl,rfl⟩
  · obtain ⟨m₀,hm₀,hstems⟩ := h m.path c hold
    exact ⟨m₀,List.mem_append_left _ hm₀,hstems⟩

theorem comesFrom_run (space : String) {calls : List RegistryCall} (hcalls : ∀ c ∈ calls, c.IsStaged) :
    ((empty space).run calls).ComesFrom (stagedAlong calls) := by
  intro path c hc
  obtain ⟨before,staged,after,m,ref,rfl,hm,hpath,rfl⟩ := registeredBy_of_run hcalls hc
  exact ⟨m,List.mem_flatMap.2 ⟨.commit staged,List.mem_append_right _ List.mem_cons_self,hm⟩,hpath,rfl,rfl,rfl⟩

/-- Are the modules those of a staged build, each with its hash, its links, and its code under the addresses of now? -/
structure Presents (b : StagedBuild) (r : Registry) : Prop where
  paths : r.modules.keys = b.paths
  entry : ∀ m ∈ b, ∃ c, r.module? m.path = some c ∧ c.sourceHash = m.template.sourceHash ∧
    c.links = m.template.links ∧ c.code = substitute m.template.text (r.targets m.template.links.modules)

/-- Do modules that were staged for one source import the same packages as a module that is staged for it now? -/
def SamePackages (seen : List StagedModule) (staged : StagedBuild) : Prop :=
  ∀ m₀ ∈ seen, ∀ m ∈ staged, m₀.path = m.path → m₀.template.sourceHash = m.template.sourceHash →
    m₀.template.links.packages = m.template.links.packages

/-- With one markup runtime a text imports the same packages, whatever else there is. -/
theorem samePackages_of_compiledFrom {options : TransformOptions} {inputs : List (List UInt8)}
    (hseen : ∀ m ∈ seen, m.CompiledFrom options inputs) (hstaged : ∀ m ∈ staged, m.CompiledFrom options inputs)
    (hinj : Blake3.NoCollision inputs) : SamePackages seen staged := by
  intro m₀ hm₀ m hm hpath hsource
  obtain ⟨fs₀,redirects₀,options₀,text₀,hcompile₀,hruntime₀,himport₀,hin₀⟩ := hseen m₀ hm₀
  obtain ⟨fs,redirects,options',text,hcompile,hruntime,himport,hin⟩ := hstaged m hm
  obtain ⟨-,hhash₀,-⟩ := Template.of_compile hcompile₀
  obtain ⟨-,hhash,-⟩ := Template.of_compile hcompile
  have htext : text₀ = text := by
    refine textBytes_injective (hinj _ hin₀ _ hin ?_)
    exact hhash₀.symm.trans (hsource.trans hhash)
  rw [hpath,htext] at hcompile₀
  exact Template.packages_compile (hruntime₀.trans hruntime.symm) (himport₀.trans himport.symm) hcompile₀ hcompile

/-- Does a commit leave a module as it is only with the packages that the module is staged with? -/
def KeepsPackages (staged : StagedBuild) (r : Registry) : Prop :=
  ∀ m ∈ staged, m.path ∉ r.changedPaths staged → ∀ old, r.module? m.path = some old →
    old.links.packages = m.template.links.packages

theorem ComesFrom.keepsPackages (h : r.ComesFrom seen) (hpackages : SamePackages seen staged) :
    r.KeepsPackages staged := by
  intro m hm hchanged old hold
  obtain ⟨old',hold',hsource,-⟩ := isSame_iff.1 (isSame_of_not_mem_changedPaths hm hchanged)
  obtain rfl := Option.some.inj (hold.symm.trans hold')
  obtain ⟨m₀,hm₀,hpath,hstems⟩ := h m.path old hold
  rw [hstems.links]
  exact hpackages m₀ hm₀ m hm hpath (hstems.source.symm.trans hsource)

theorem keepsPackages_empty (space : String) : (empty space).KeepsPackages staged :=
  fun _ _ _ _ h => by contradiction

/-- The packages of what a commit registers are those of what is staged, unless it leaves a module as it is with others. -/
theorem packages_commit_iff (hr : r.Sound) (hn : staged.paths.Nodup) :
    (∀ m ∈ staged, ∀ c, (r.commit staged).1.module? m.path = some c →
      c.links.packages = m.template.links.packages) ↔ r.KeepsPackages staged := by
  constructor
  · intro h m hm hchanged old hold
    obtain ⟨old',hold',hnew,-,-⟩ := module?_commit_of_unchanged hr hn hm hchanged
    obtain rfl := Option.some.inj (hold.symm.trans hold')
    exact h m hm old hnew
  · intro h m hm c hc
    obtain ⟨ref,rfl⟩ | ⟨hchanged,hold,-⟩ := module?_commit_cases hr hn hm hc
    · rfl
    · exact h m hm hchanged c hold

theorem keys_commit (h : r.Sound) (hs : staged.IsStaged) : (r.commit staged).1.modules.keys = staged.paths := by
  have hn := hs.nodup_paths
  have hkeys : (r.commit staged).1.modules.keys.Pairwise (· < ·) := List.pairwise_map.2 (h.commit hn).ordered
  refine hkeys.eq_of_mem_iff hs.pairwise_paths fun p => ?_
  rw [← contains_commit h hn]
  exact OrderedMap.contains_iff_mem_keys.symm

theorem code_of_builtFrom {m : StagedModule} {c : CompiledModule} (h : r.BuiltFrom m c)
    (hd : ∀ d ∈ m.template.links.modules, r.contains d = true) :
    c.code = substitute m.template.text (r.targets m.template.links.modules) := by
  obtain ⟨address,hcode,haddress⟩ := h.code
  rw [hcode]
  refine congrArg _ (List.map_congr_left fun d hdm => ?_)
  obtain ⟨old,hold⟩ := Option.isSome_iff_exists.1 (hd d hdm)
  have href : r.reference? d = some old.reference := congrArg (Option.map CompiledModule.reference) hold
  rw [href,haddress d hdm _ href]
  rfl

/-- Is a staged module registered with its hashes and its imports, and with its code under the addresses of now? -/
def Registers (m : StagedModule) (r : Registry) : Prop :=
  ∃ c, r.module? m.path = some c ∧ c.sourceHash = m.template.sourceHash ∧ c.templateHash = m.templateHash ∧
    c.links.modules = m.template.links.modules ∧
    c.code = substitute m.template.text (r.targets m.template.links.modules)

theorem UpToDate.registers_commit {m : StagedModule} (h : r.UpToDate seen) (hr : r.Sound) (hs : staged.IsStaged)
    (hseen : ∀ m ∈ seen, m = .ofTemplate m.template) (hfit : ∀ m ∈ seen ++ staged, m.Fits)
    (hinj : NoCollision (seen ++ staged)) (hm : m ∈ staged) : (r.commit staged).1.Registers m := by
  have hn := hs.nodup_paths
  obtain ⟨c,hc,hbuilt⟩ := h.builtFrom_commit hr hs hseen hfit hinj hm
  obtain ⟨c',hc',hsource,hhash⟩ := hashes_commit hr hn hm
  obtain rfl := Option.some.inj (hc.symm.trans hc')
  refine ⟨c,hc,hsource,hhash,hbuilt.imports,code_of_builtFrom hbuilt fun d hd => ?_⟩
  exact (contains_commit hr hn).2 (hs.mem_paths_of_link hm hd)

theorem UpToDate.presents_commit (h : r.UpToDate seen) (hfrom : r.ComesFrom seen) (hr : r.Sound)
    (hs : staged.IsStaged) (hseen : ∀ m ∈ seen, m = .ofTemplate m.template)
    (hfit : ∀ m ∈ seen ++ staged, m.Fits) (hinj : NoCollision (seen ++ staged)) (hpackages : SamePackages seen staged) :
    (r.commit staged).1.Presents staged := by
  refine ⟨keys_commit hr hs,fun m hm => ?_⟩
  obtain ⟨c,hc,hsource,-,himports,hcode⟩ := h.registers_commit hr hs hseen hfit hinj hm
  -- The hash of the template settles which modules it imports, but says nothing about packages: those depend on the
  -- source only, and the source is the same.
  have hpack := (packages_commit_iff hr hs.nodup_paths).2 (hfrom.keepsPackages hpackages) m hm c hc
  exact ⟨c,hc,hsource,Links.eq_of_parts himports hpack,hcode⟩

/-- The packages of what is registered at the paths of a build, against those of what is staged there. -/
theorem Sound.names_eq_iff {b : StagedBuild} (hr : r.Sound) (hpaths : r.modules.keys = b.paths) :
    r.modules.map (fun e => (e.1,e.2.links.packages)) = b.map (fun m => (m.path,m.template.links.packages)) ↔
      ∀ m ∈ b, ∀ c, r.module? m.path = some c → c.links.packages = m.template.links.packages := by
  rw [hr.ordered.map_eq_map_keys (·.links.packages) [],hpaths,StagedBuild.paths,List.map_map,List.map_inj_left]
  refine forall₂_congr fun m hm => ?_
  obtain ⟨c,hc⟩ : ∃ c, r.module? m.path = some c := by
    refine Option.isSome_iff_exists.1 (OrderedMap.contains_iff_mem_keys.2 ?_)
    rw [hpaths]
    exact List.mem_map_of_mem hm
  have hfind : OrderedMap.find? m.path r.modules = some c := hc
  simp only [Function.comp_apply,hfind,hc,Option.map_some,Option.getD_some,Prod.mk.injEq,true_and,
    Option.some.injEq,forall_eq']

/-- The paths and the packages of what is registered are those of what is staged. -/
theorem Presents.names_eq {b : StagedBuild} (h : r.Presents b) (hr : r.Sound) :
    r.modules.map (fun e => (e.1,e.2.links.packages)) = b.map fun m => (m.path,m.template.links.packages) := by
  refine (hr.names_eq_iff h.paths).2 fun m hm c hc => ?_
  obtain ⟨c',hc',-,hlinks,-⟩ := h.entry m hm
  obtain rfl := Option.some.inj (hc.symm.trans hc')
  exact congrArg Links.packages hlinks

/-- Does a function take the addresses in a registry to those of the same modules in another one, and different
addresses to different ones? -/
structure Readdresses (rename : String → String) (r r' : Registry) : Prop where
  address : ∀ path c c', r.module? path = some c → r'.module? path = some c' →
    c'.reference.text = rename c.reference.text
  injective : ∀ path path' c c', r.module? path = some c → r.module? path' = some c' →
    rename c.reference.text = rename c'.reference.text → path = path'

/-- The address in `r'` of the module that has an address in `r`. -/
def readdress (r r' : Registry) (address : String) : String :=
  match List.find? (fun e => e.2.reference.text == address) r.modules with
  | some e => ((r'.reference? e.1).map Reference.text).getD ""
  | none => address

theorem Sound.readdress_eq {path : String} {c c' : CompiledModule} (h : r.Sound) (hc : r.module? path = some c)
    (hc' : r'.module? path = some c') : readdress r r' c.reference.text = c'.reference.text := by
  have hfound : ∃ e, List.find? (fun e => e.2.reference.text == c.reference.text) r.modules = some e ∧
      e.1 = path := by
    cases hf : List.find? (fun e => e.2.reference.text == c.reference.text) r.modules with
    | none =>
      have hnot := List.find?_eq_none.1 hf _ (OrderedMap.mem_of_find? hc)
      simp at hnot
    | some e =>
      have hmod : r.module? e.1 = some e.2 := (OrderedMap.find?_eq_some_iff h.ordered).2 (List.mem_of_find?_eq_some hf)
      have htext : e.2.reference.text = c.reference.text := by simpa using List.find?_some hf
      exact ⟨e,rfl,h.path_eq hmod hc htext⟩
  obtain ⟨e,hf,rfl⟩ := hfound
  rw [readdress,hf]
  simp only [reference?,hc',Option.map_some,Option.getD_some]

/-- Two registries with modules at the same paths can be given each other's addresses. -/
theorem Sound.readdresses (h : r.Sound) (h' : r'.Sound) (hkeys : r.modules.keys = r'.modules.keys) :
    Readdresses (readdress r r') r r' := by
  refine ⟨fun p c c' hc hc' => (h.readdress_eq hc hc').symm,fun p q c d hc hd heq => ?_⟩
  have hother : ∀ {p c}, r.module? p = some c → ∃ c', r'.module? p = some c' := by
    intro p c hc
    exact Option.isSome_iff_exists.1 ((OrderedMap.contains_congr hkeys p).symm.trans (congrArg Option.isSome hc))
  obtain ⟨c',hc'⟩ := hother hc
  obtain ⟨d',hd'⟩ := hother hd
  rw [h.readdress_eq hc hc',h.readdress_eq hd hd'] at heq
  exact h'.path_eq hc' hd' heq

theorem Readdresses.targets_eq {rename : String → String} {paths : List String} (h : Readdresses rename r r')
    (hr : ∀ d ∈ paths, r.contains d = true) (hr' : ∀ d ∈ paths, r'.contains d = true) :
    r'.targets paths = (r.targets paths).map rename := by
  rw [targets,targets,List.map_map]
  refine List.map_congr_left fun d hd => ?_
  obtain ⟨c,hc⟩ : ∃ c, r.module? d = some c := Option.isSome_iff_exists.1 (hr d hd)
  obtain ⟨c',hc'⟩ : ∃ c', r'.module? d = some c' := Option.isSome_iff_exists.1 (hr' d hd)
  simp only [reference?,hc,hc',Option.map_some,Option.getD_some,Function.comp_apply,h.address d c c' hc hc']

/-- Two registries that hold the same build differ in their addresses only. -/
theorem Presents.exists_renaming {b : StagedBuild} (h : r.Presents b) (h' : r'.Presents b) (hr : r.Sound)
    (hr' : r'.Sound) (hb : b.IsStaged) : ∃ rename, Readdresses rename r r' ∧
    ∀ m ∈ b, r'.targets m.template.links.modules = (r.targets m.template.links.modules).map rename := by
  have hreaddresses := hr.readdresses hr' (h.paths.trans h'.paths.symm)
  refine ⟨readdress r r',hreaddresses,fun m hm => hreaddresses.targets_eq (fun d hd => ?_) fun d hd => ?_⟩
  · rw [contains,OrderedMap.contains_iff_mem_keys,h.paths]
    exact hb.mem_paths_of_link hm hd
  · rw [contains,OrderedMap.contains_iff_mem_keys,h'.paths]
    exact hb.mem_paths_of_link hm hd

end Registry

end PreviewCompiler
