import PreviewCompiler.Proofs.Compile.SameFiles
import PreviewCompiler.Proofs.Registry.Minting
import Mathlib.Data.Finset.Card
import Mathlib.Data.List.Sort
import Mathlib.Logic.Relation

namespace PreviewCompiler

open Data

/-- Does a module of a build import another one? -/
def StagedBuild.Imports (b : StagedBuild) (path path' : String) : Prop :=
  ∃ m ∈ b, m.path = path ∧ path' ∈ m.template.links.modules

namespace FileSet

variable {fs fs' : FileSet} {redirects : Redirects} {options : TransformOptions} {b b' : StagedBuild}

/-- Is what two snapshots have at a path different? -/
def Edited (fs fs' : FileSet) (path : String) : Prop := OrderedMap.find? path fs ≠ OrderedMap.find? path fs'

theorem mem_modules_iff {path content : String} (ho : OrderedMap.IsOrdered fs) :
    (path,content) ∈ fs.modules ↔ OrderedMap.find? path fs = some (.file content) ∧ Path.isModule path = true := by
  rw [modules,List.mem_filter,OrderedMap.find?_eq_some_iff ho,files,List.mem_filterMap]
  refine and_congr_left fun _ => ⟨?_,fun h => ⟨_,h,rfl⟩⟩
  rintro ⟨⟨path',_ | content'⟩,hmem,heq⟩
  · obtain ⟨rfl,rfl⟩ := Prod.mk.inj (Option.some.inj heq)
    exact hmem
  · contradiction

/-- Each module file is staged as what it is compiled to. -/
theorem exists_mem_of_stage {path content : String} (h : fs.stage redirects options = .ok b)
    (hf : (path,content) ∈ fs.modules) : ∃ t, Template.compile fs redirects options path content = .ok t ∧
      StagedModule.ofTemplate t ∈ b := by
  replace h := forall₂_of_stage h
  generalize fs.modules = files at h hf
  induction h with
  | nil => contradiction
  | cons hm _ ih =>
    rcases List.mem_cons.1 hf with rfl | hf
    · exact ⟨_,hm.1,hm.2 ▸ List.mem_cons_self⟩
    · obtain ⟨t,ht,hmem⟩ := ih hf
      exact ⟨t,ht,List.mem_cons_of_mem _ hmem⟩

theorem SamePaths.paths_eq (h : fs.SamePaths fs') (ho : OrderedMap.IsOrdered fs) (ho' : OrderedMap.IsOrdered fs')
    (hb : fs.stage redirects options = .ok b) (hb' : fs'.stage redirects options = .ok b') : b'.paths = b.paths := by
  have hpairwise := StagedBuild.IsStaged.pairwise_paths ⟨fs,redirects,options,ho,hb⟩
  have hpairwise' := StagedBuild.IsStaged.pairwise_paths ⟨fs',redirects,options,ho',hb'⟩
  refine hpairwise'.eq_of_mem_iff hpairwise fun path => ?_
  rw [mem_paths_of_stage ho hb,mem_paths_of_stage ho' hb',IsModuleFile,IsModuleFile,h path]

/-- A file that has not been edited is staged as before. -/
theorem SamePaths.mem_of_not_edited {m : StagedModule} (h : fs.SamePaths fs') (ho : OrderedMap.IsOrdered fs)
    (ho' : OrderedMap.IsOrdered fs') (hb : fs.stage redirects options = .ok b)
    (hb' : fs'.stage redirects options = .ok b') (hm : m ∈ b') (hedited : ¬ fs.Edited fs' m.path) : m ∈ b := by
  obtain ⟨⟨path,content⟩,hf,hcompile,heq⟩ := exists_of_mem_stage hb' hm
  obtain rfl : m.path = path := (Template.of_compile hcompile).1
  have hf' : (m.path,content) ∈ fs.modules := by
    rw [mem_modules_iff ho'] at hf
    rwa [mem_modules_iff ho,not_not.1 hedited]
  obtain ⟨t,ht,hmem⟩ := exists_mem_of_stage hb hf'
  rw [Template.compile_congr h] at ht
  obtain rfl := Except.ok.inj (ht.symm.trans hcompile)
  rwa [heq]

end FileSet

namespace Registry

variable {r : Registry} {b : StagedBuild}

/-- Are the modules those of a build, each registered with its hashes? -/
structure HoldsBuild (r : Registry) (b : StagedBuild) : Prop where
  paths : ∀ path, r.contains path = true → path ∈ b.paths
  same : ∀ m ∈ b, r.isSame m = true

/-- A registry holds what has been committed to it. -/
theorem holdsBuild_commit (h : r.Sound) (hn : b.paths.Nodup) : (r.commit b).1.HoldsBuild b :=
  ⟨fun _ => (contains_commit h hn).1,fun _ hm => isSame_iff.2 (hashes_commit h hn hm)⟩

/-- What a commit changes are edited modules and what imports them. -/
theorem HoldsBuild.exists_edited {b' : StagedBuild} {fs fs' : FileSet} {redirects : Redirects}
    {options : TransformOptions} (h : r.HoldsBuild b) (hpaths : fs.SamePaths fs') (ho : OrderedMap.IsOrdered fs)
    (ho' : OrderedMap.IsOrdered fs') (hb : fs.stage redirects options = .ok b)
    (hb' : fs'.stage redirects options = .ok b') :
    ∀ p ∈ r.changedPaths b', ∃ q, fs.Edited fs' q ∧ Relation.ReflTransGen b'.Imports p q := by
  refine changedPaths_least (fun m hm hnew => ?_) fun m hm p hp himports => ?_
  · by_cases hedited : fs.Edited fs' m.path
    · exact ⟨m.path,hedited,.refl⟩
    · have hsame := h.same m (hpaths.mem_of_not_edited ho ho' hb hb' hm hedited)
      rw [hnew] at hsame
      contradiction
  · obtain ⟨q,hedited,hreach⟩ := hp
    exact ⟨q,hedited,.head ⟨m,hm,rfl,List.contains_iff_mem.1 himports⟩ hreach⟩

/-- A module keeps its reference unless it is changed. -/
theorem reference?_commit_ne_iff {staged : StagedBuild} {p : String} (h : r.Sound) (hn : staged.paths.Nodup)
    (hp : p ∉ r.changedPaths staged → (r.commit staged).1.module? p = r.module? p) :
    (r.commit staged).1.reference? p ≠ r.reference? p ↔ p ∈ r.changedPaths staged := by
  constructor
  · intro hne
    by_contra hc
    exact hne (congrArg (Option.map CompiledModule.reference) (hp hc))
  · intro hc heq
    obtain ⟨m,hm,rfl⟩ := StagedBuild.mem_paths.1 (changedPaths_subset p hc)
    obtain ⟨c,hmod,hlt⟩ := minted_lt_of_changed h hn hm hc
    rw [reference?,hmod] at heq
    obtain ⟨old,hold,href⟩ := Option.map_eq_some_iff.1 heq.symm
    have hle := h.id_le hold
    rw [href] at hle
    exact absurd hlt (Nat.not_lt.2 hle)

/-- Of a registry that holds a build with the same paths nothing else changes. -/
theorem HoldsBuild.module?_commit_of_unchanged {staged : StagedBuild} {p : String} (h : r.HoldsBuild b) (hr : r.Sound)
    (hn : staged.paths.Nodup) (hpaths : staged.paths = b.paths) (hp : p ∉ r.changedPaths staged) :
    (r.commit staged).1.module? p = r.module? p := by
  by_cases hmem : p ∈ staged.paths
  · obtain ⟨m,hm,rfl⟩ := StagedBuild.mem_paths.1 hmem
    obtain ⟨old,hold,hnew,-,-⟩ := Registry.module?_commit_of_unchanged hr hn hm hp
    rw [hold,hnew]
  · rw [module?_commit_of_not_mem hr hn hmem]
    cases hold : r.module? p with
    | none => rfl
    | some old =>
      rw [hpaths] at hmem
      exact absurd (h.paths p (congrArg Option.isSome hold)) hmem

theorem HoldsBuild.summary_commit {staged : StagedBuild} (h : r.HoldsBuild b) (hr : r.Sound) (hn : staged.paths.Nodup)
    (hpaths : staged.paths = b.paths) : (r.commit staged).2 =
      { minted := (r.changedPaths staged).length
        released := (r.changedPaths staged).length
        reused := b.length - (r.changedPaths staged).length } := by
  have habsent : r.absentPaths staged = [] := by
    refine List.filter_eq_nil_iff.2 fun p hp => ?_
    have hmem := h.paths p (OrderedMap.contains_iff_mem_keys.2 hp)
    rw [← hpaths] at hmem
    simpa using hmem
  have hcontains : (r.changedPaths staged).countP (r.contains ·) = (r.changedPaths staged).length := by
    refine List.countP_eq_length.2 fun p hp => ?_
    have hmem := changedPaths_subset p hp
    rw [hpaths] at hmem
    obtain ⟨m,hm,rfl⟩ := StagedBuild.mem_paths.1 hmem
    obtain ⟨old,hold,-⟩ := isSame_iff.1 (h.same m hm)
    exact congrArg Option.isSome hold
  have hlength : staged.length = b.length := by
    rw [← StagedBuild.length_paths,hpaths,StagedBuild.length_paths]
  rw [Registry.summary_commit hr hn,habsent,hcontains,hlength,List.length_nil,Nat.zero_add]

/-- A file is compiled to the same module or the same error in all snapshots with the same paths of files.  So when a
registry that holds a build compiles the snapshot with some of its files edited, what gets a new reference is edited
or imports something edited, directly or through others, and all other modules stay as they are. -/
theorem edit_spreads_to_importers (fs fs' : FileSet) (hpaths : fs.SamePaths fs') (redirects : Redirects)
    (options : TransformOptions) :
    (∀ path content, Template.compile fs redirects options path content =
      Template.compile fs' redirects options path content) ∧
    ∀ (space : String) (calls : List RegistryCall) (b : StagedBuild) (r' : Registry) (summary : CommitSummary),
      OrderedMap.IsOrdered fs → OrderedMap.IsOrdered fs' → (∀ c ∈ calls, c.IsStaged) →
      fs.stage redirects options = .ok b → ((empty space).run calls).HoldsBuild b →
      ((empty space).run calls).recompileAll fs' redirects options = .ok (r',summary) →
      let r := (empty space).run calls
      ∃ (b' : StagedBuild) (D : Finset String), fs'.stage redirects options = .ok b' ∧ b'.paths = b.paths ∧
        (∀ p, p ∈ D ↔ r'.reference? p ≠ r.reference? p) ∧
        (∀ p ∈ D, ∃ q, fs.Edited fs' q ∧ Relation.ReflTransGen b'.Imports p q) ∧
        (∀ p, p ∉ D → r'.module? p = r.module? p) ∧
        summary = { minted := D.card, released := D.card, reused := b.length - D.card } := by
  refine ⟨fun path content => Template.compile_congr hpaths redirects options path content,?_⟩
  intro space calls b r' summary ho ho' hcalls hb hholds h r
  have hr : r.Sound := (sound_empty space).run hcalls
  obtain ⟨b',hb',hcommit⟩ := map_eq_ok h
  obtain rfl : r' = (r.commit b').1 := (congrArg Prod.fst hcommit).symm
  obtain rfl : summary = (r.commit b').2 := (congrArg Prod.snd hcommit).symm
  have hn : b'.paths.Nodup := StagedBuild.IsStaged.nodup_paths ⟨fs',redirects,options,ho',hb'⟩
  have hsame : b'.paths = b.paths := hpaths.paths_eq ho ho' hb hb'
  have hkept : ∀ p, p ∉ r.changedPaths b' → (r.commit b').1.module? p = r.module? p := fun p =>
    hholds.module?_commit_of_unchanged hr hn hsame
  refine ⟨b',(r.changedPaths b').toFinset,hb',hsame,fun p => ?_,fun p hp => ?_,fun p hp => ?_,?_⟩
  · exact List.mem_toFinset.trans (reference?_commit_ne_iff hr hn (hkept p)).symm
  · exact hholds.exists_edited hpaths ho ho' hb hb' p (List.mem_toFinset.1 hp)
  · exact hkept p fun hc => hp (List.mem_toFinset.2 hc)
  · rw [hholds.summary_commit hr hn hsame,List.toFinset_card_of_nodup (nodup_changedPaths hn)]

/-- The end of a chain of imports is edited; a module that is not in the chain stays. -/
theorem edit_spreads_to_importers_of_chain :
    let fs : FileSet := [("/a.js",.file "import './b.js'"),("/b.js",.file "import './c.js'"),("/c.js",.file "0"),
      ("/d.js",.file "import 'react'")]
    let fs' : FileSet := [("/a.js",.file "import './b.js'"),("/b.js",.file "import './c.js'"),("/c.js",.file "1"),
      ("/d.js",.file "import 'react'"),("/empty",.directory)]
    (∀ path content, Template.compile fs {} {} path content = Template.compile fs' {} {} path content) ∧
    ∃ b r' summary, fs.stage {} {} = .ok b ∧
      let r := (empty "t").run [.commit b]
      r.recompileAll fs' {} {} = .ok (r',summary) ∧ r'.module? "/d.js" = r.module? "/d.js" := by
  intro fs fs'
  have ho : OrderedMap.IsOrdered fs := by decide +kernel
  have ho' : OrderedMap.IsOrdered fs' := by decide +kernel
  have hpaths : fs.SamePaths fs' := FileSet.samePaths_of_paths_eq ho ho' (by decide +kernel)
  obtain ⟨b,hb,-⟩ := exists_eq_ok (x := fs.stage {} {}) (p := fun _ => true) (by decide +kernel)
  obtain ⟨b₁,hb₁,hlinks⟩ := exists_eq_ok (x := fs'.stage {} {})
    (p := fun b => b.all fun m => m.path != "/d.js" || m.template.links.modules.isEmpty) (by decide +kernel)
  have hstaged : b.IsStaged := ⟨fs,{},{},ho,hb⟩
  have hcalls : ∀ c ∈ [RegistryCall.commit b], c.IsStaged := by
    simp only [List.forall_mem_cons]
    exact ⟨hstaged,fun _ hc => absurd hc List.not_mem_nil⟩
  have hholds : ((empty "t").run [.commit b]).HoldsBuild b :=
    holdsBuild_commit (sound_empty "t") hstaged.nodup_paths
  have h := recompileAll_of_stage hb₁ ((empty "t").run [.commit b])
  obtain ⟨hcompile,hedit⟩ := edit_spreads_to_importers fs fs' hpaths {} {}
  obtain ⟨b',D,hb',-,-,hspread,hkept,-⟩ := hedit "t" _ b _ _ ho ho' hcalls hb hholds h
  obtain rfl := Except.ok.inj (hb'.symm.trans hb₁)
  refine ⟨hcompile,b,_,_,hb,h,hkept "/d.js" fun hd => ?_⟩
  obtain ⟨q,hedited,hreach⟩ := hspread "/d.js" hd
  rcases hreach.cases_head with rfl | ⟨path,⟨m,hm,hpath,himport⟩,-⟩
  · exact hedited (by decide +kernel)
  · have hnone : m.template.links.modules = [] := by
      simpa [show m.path = "/d.js" from hpath] using List.all_eq_true.1 hlinks m hm
    rw [hnone] at himport
    exact absurd himport List.not_mem_nil

end Registry

end PreviewCompiler
