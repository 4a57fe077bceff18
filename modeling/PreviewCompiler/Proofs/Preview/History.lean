import PreviewCompiler.Proofs.Preview.ImportMap
import PreviewCompiler.Proofs.Registry.Content

namespace PreviewCompiler

open Data

namespace Registry

variable {r r' : Registry} {b : StagedBuild} {calls : List RegistryCall}

/-- Under other addresses modules have their keys for those. -/
theorem Readdresses.ownEntries_eq {rename : String → String} (h : Readdresses rename r r') (hr : r.Sound)
    (hr' : r'.Sound) (hkeys : r'.modules.keys = r.modules.keys) :
    ImportMap.ownEntries r' = (ImportMap.ownEntries r).mapValues fun _ => rename := by
  refine ImportMap.ownEntries_mapValues ?_
  rw [hr.ordered.map_eq_map_keys (·.reference.text) "",hr'.ordered.map_eq_map_keys (·.reference.text) "",hkeys,
    OrderedMap.mapValues,List.map_map]
  refine List.map_congr_left fun p hp => ?_
  obtain ⟨c,hc⟩ : ∃ c, r.module? p = some c := Option.isSome_iff_exists.1 (OrderedMap.contains_iff_mem_keys.2 hp)
  rw [← hkeys] at hp
  obtain ⟨c',hc'⟩ : ∃ c', r'.module? p = some c' := Option.isSome_iff_exists.1 (OrderedMap.contains_iff_mem_keys.2 hp)
  have haddress := h.address p c c' hc hc'
  rw [show OrderedMap.find? p r'.modules = some c' from hc']
  simp only [Function.comp_apply,show OrderedMap.find? p r.modules = some c from hc,Option.map_some,Option.getD_some,
    haddress]

/-- When one registry gets the packages of a build as they are staged, another one agrees with it just when it does so
too. -/
theorem sameNames_commit_iff (hr : r.Sound) (hr' : r'.Sound) (hb : b.IsStaged) (hkeeps : r'.KeepsPackages b) :
    ImportMap.SameNames (r.commit b).1 (r'.commit b).1 ↔ r.KeepsPackages b := by
  have hn := hb.nodup_paths
  have hnames := ((hr'.commit hn).names_eq_iff (keys_commit hr' hb)).2 ((packages_commit_iff hr' hn).2 hkeeps)
  rw [ImportMap.SameNames,hnames,(hr.commit hn).names_eq_iff (keys_commit hr hb),packages_commit_iff hr hn]

/-- After the last of some calls a registry holds what a new one holds after that call alone, under other addresses:
the same modules with the same code, and the same keys for them in the import map.  The modules have the same packages
if and only if the call has left none as it is that had others; then the packages of the registry and the whole import
map are the same too, up to the addresses.  It is enough that all calls have the same markup runtime. -/
theorem last_call_decides {space space' : String} {fs : FileSet} {redirects : Redirects} {options : TransformOptions}
    {last fresh : Registry} {summary summary' : CommitSummary} (hcalls : ∀ c ∈ calls, c.IsStaged)
    (ho : OrderedMap.IsOrdered fs)
    (hlast : ((empty space).run calls).recompileAll fs redirects options = .ok (last,summary))
    (hfresh : (empty space').recompileAll fs redirects options = .ok (fresh,summary')) :
    let r := (empty space).run calls
    ∃ (b : StagedBuild) (rename : String → String), fs.stage redirects options = .ok b ∧
      Readdresses rename fresh last ∧ (∀ m ∈ b, last.targets m.template.links.modules =
        (fresh.targets m.template.links.modules).map rename) ∧
      ((∀ m ∈ stagedAlong calls ++ b, m.Fits) → NoCollision (stagedAlong calls ++ b) →
        ∀ m ∈ b, fresh.Registers m ∧ last.Registers m) ∧
      ImportMap.ownEntries last = (ImportMap.ownEntries fresh).mapValues (fun _ => rename) ∧
      (ImportMap.SameNames last fresh ↔ r.KeepsPackages b) ∧
      (r.KeepsPackages b → last.packages = fresh.packages ∧
        (ImportMap.build last redirects).imports = (ImportMap.build fresh redirects).imports.mapValues fun key v =>
          if OrderedMap.contains key (ImportMap.ownEntries fresh) = true then rename v else v) ∧
      ∀ inputs, (∀ m ∈ stagedAlong calls ++ b, m.CompiledFrom options inputs) → Blake3.NoCollision inputs →
        r.KeepsPackages b := by
  intro r
  obtain ⟨b,hb,hcommit⟩ := map_eq_ok hlast
  obtain ⟨b',hb',hcommit'⟩ := map_eq_ok hfresh
  obtain rfl : b' = b := Except.ok.inj (hb'.symm.trans hb)
  obtain rfl : last = (r.commit b').1 := (congrArg Prod.fst hcommit).symm
  obtain rfl : fresh = ((empty space').commit b').1 := (congrArg Prod.fst hcommit').symm
  have hstaged : b'.IsStaged := ⟨fs,redirects,options,ho,hb⟩
  have hn := hstaged.nodup_paths
  have hr : r.Sound := (sound_empty space).run hcalls
  have hempty : (empty space').Sound := sound_empty space'
  have hkeys := keys_commit hr hstaged
  have hkeys' := keys_commit hempty hstaged
  have hrename := (hempty.commit hn).readdresses (hr.commit hn) (hkeys'.trans hkeys.symm)
  have hown := hrename.ownEntries_eq (hempty.commit hn) (hr.commit hn) (hkeys.trans hkeys'.symm)
  have hnames := sameNames_commit_iff hr hempty hstaged (keepsPackages_empty space')
  refine ⟨b',_,hb,hrename,fun m hm => ?_,fun hfit hinj m hm => ⟨?_,?_⟩,hown,hnames,fun hkeeps => ?_,
    fun inputs hcompiled hinj => ?_⟩
  · have hlinked : ∀ d ∈ m.template.links.modules, d ∈ b'.paths := fun d => hstaged.mem_paths_of_link hm
    exact hrename.targets_eq (fun d hd => (contains_commit hempty hn).2 (hlinked d hd))
      fun d hd => (contains_commit hr hn).2 (hlinked d hd)
  · exact (upToDate_empty space').registers_commit hempty hstaged (fun _ h => absurd h List.not_mem_nil)
      (fun m hm => hfit m (List.mem_append_right _ hm)) (hinj.subset fun m hm => List.mem_append_right _ hm) hm
  · have hup := upToDate_run space hcalls (fun m hm => hfit m (List.mem_append_left _ hm))
      (hinj.subset fun m hm => List.mem_append_left _ hm)
    exact hup.registers_commit hr hstaged (fun m hm => eq_ofTemplate_of_stagedAlong hcalls hm) hfit hinj hm
  · have hsame := hnames.2 hkeeps
    exact ⟨hsame.packages_eq,ImportMap.build_mapValues hown (hsame.packageEntries_eq redirects)⟩
  · obtain ⟨hseen,hlast⟩ := List.forall_mem_append.1 hcompiled
    exact (comesFrom_run space hcalls).keepsPackages (samePackages_of_compiledFrom hseen hlast hinj)

/-- The version of React is pinned, so that the module is left as it is under another default. -/
theorem last_call_decides_of_pinned :
    let fs : FileSet := [("/App.jsx",.file "export default () => <div/>;\n")]
    ∃ b last summary fresh summary', fs.stage { defaultVersion := "next" } {} = .ok b ∧
      ((empty "t").run [.commit b]).recompileAll fs {} {} = .ok (last,summary) ∧
      (empty "t").recompileAll fs {} {} = .ok (fresh,summary') ∧ last.packages = fresh.packages ∧
      ∃ rename, Readdresses rename fresh last ∧
        (ImportMap.build last {}).imports = (ImportMap.build fresh {}).imports.mapValues fun key v =>
          if OrderedMap.contains key (ImportMap.ownEntries fresh) = true then rename v else v := by
  intro fs
  let text := "export default () => <div/>;\n"
  have ho : OrderedMap.IsOrdered fs := by decide +kernel
  have hmodules : fs.modules = [("/App.jsx",text)] := by decide +kernel
  obtain ⟨b,hb,-⟩ := exists_eq_ok (x := fs.stage { defaultVersion := "next" } {})
    (p := fun _ => true) (by decide +kernel)
  obtain ⟨b',hb',-⟩ := exists_eq_ok (x := fs.stage {} {}) (p := fun _ => true) (by decide +kernel)
  have hcalls : ∀ c ∈ [RegistryCall.commit b], c.IsStaged :=
    List.forall_mem_singleton.2 ⟨fs,_,_,ho,hb⟩
  have hin : ∀ f ∈ fs.modules, textBytes f.2 ∈ [textBytes text] := by
    rw [hmodules]
    exact List.forall_mem_singleton.2 List.mem_cons_self
  have hcompiled : ∀ m ∈ stagedAlong [.commit b] ++ b', m.CompiledFrom {} [textBytes text] := by
    refine List.forall_mem_append.2 ⟨fun m hm => ?_,FileSet.compiledFrom_of_stage hb' hin⟩
    rw [stagedAlong,List.flatMap_singleton] at hm
    exact FileSet.compiledFrom_of_stage hb hin m hm
  have hinj : Blake3.NoCollision [textBytes text] := fun _ ha _ hc _ =>
    (List.mem_singleton.1 ha).trans (List.mem_singleton.1 hc).symm
  have hlast := recompileAll_of_stage hb' ((empty "t").run [.commit b])
  have hfresh := recompileAll_of_stage hb' (empty "t")
  obtain ⟨b₁,rename,hb₁,hrename,-,-,-,-,hsame,hkeeps⟩ := last_call_decides hcalls ho hlast hfresh
  obtain rfl := Except.ok.inj (hb'.symm.trans hb₁)
  obtain ⟨hpackages,himports⟩ := hsame (hkeeps _ hcompiled hinj)
  exact ⟨b,_,_,_,_,hb,hlast,hfresh,hpackages,rename,hrename,himports⟩

/-- A commit without packages of earlier calls registers those that are staged. -/
theorem KeepsPackages.packages_commit (h : r.KeepsPackages b) (hr : r.Sound) (hb : b.IsStaged) :
    (r.commit b).1.packages = (b.flatMap (·.template.links.packages)).foldl (fun ps p => p.insert ps) [] := by
  have hn := hb.nodup_paths
  have hnames := ((hr.commit hn).names_eq_iff (keys_commit hr hb)).2 ((packages_commit_iff hr hn).2 h)
  rw [ImportMap.packages_eq_foldl,hnames,List.flatMap_map]

/-- The hashes of a module tell of its text and its template, but not of the packages in it. -/
theorem isSame_of_stage {fs : FileSet} {redirects redirects' : Redirects} {options options' : TransformOptions}
    {b' : StagedBuild} {m m' : StagedModule} (hr : r.Sound) (ho : OrderedMap.IsOrdered fs)
    (hb : fs.stage redirects options = .ok b) (hb' : fs.stage redirects' options' = .ok b') (hm : m ∈ b) (hm' : m' ∈ b')
    (hpath : m'.path = m.path) (htext : m'.template.text = m.template.text)
    (himports : m'.template.links.modules = m.template.links.modules) : (r.commit b).1.isSame m' = true := by
  have hn := StagedBuild.IsStaged.nodup_paths ⟨fs,redirects,options,ho,hb⟩
  obtain ⟨f,hf,hcompile,htemplate⟩ := FileSet.exists_of_mem_stage hb hm
  obtain ⟨f',hf',hcompile',htemplate'⟩ := FileSet.exists_of_mem_stage hb' hm'
  obtain ⟨hp,hsource,-⟩ := Template.of_compile hcompile
  obtain ⟨hp',hsource',-⟩ := Template.of_compile hcompile'
  obtain rfl : f' = f :=
    List.inj_on_of_nodup_map (FileSet.nodup_modules ho) hf' hf (hp'.symm.trans (hpath.trans hp))
  obtain ⟨c,hc,hcsource,hchash⟩ := hashes_commit hr hn hm
  refine isSame_iff.2 ⟨c,hpath ▸ hc,hcsource.trans (hsource.trans hsource'.symm),?_⟩
  rw [hchash,StagedModule.templateHash_of_eq_ofTemplate htemplate,
    StagedModule.templateHash_of_eq_ofTemplate htemplate',StagedModule.hashInput,StagedModule.hashInput,
    StagedModule.entries,StagedModule.entries,htext,himports]

/-- A runtime that is named with its version is the one that was named without it when that version was pinned.  So the
module is left as it is, and the import map is told the version that is not pinned any more. -/
theorem packages_of_earlier_call :
    let fs : FileSet := [("/App.jsx",.file "export default () => <div/>;\n")]
    let options : TransformOptions := { importSource := "preact@10" }
    ∃ b last summary fresh summary',
      fs.stage { pins := [("preact","10")] } { importSource := "preact" } = .ok b ∧
      ((empty "t").run [.commit b]).recompileAll fs {} options = .ok (last,summary) ∧
      (empty "t").recompileAll fs {} options = .ok (fresh,summary') ∧
      last.packages = [{ name := "preact", subpath := some "jsx-runtime" }] ∧
      fresh.packages = [{ name := "preact", version := some "10", subpath := some "jsx-runtime" }] ∧
      (ImportMap.build last {}).get? "preact/jsx-runtime" =
        some "https://esm.sh/preact@latest/jsx-runtime?external=react,react-dom" ∧
      (ImportMap.build fresh {}).get? "preact/jsx-runtime" =
        some "https://esm.sh/preact@10/jsx-runtime?external=react,react-dom" := by
  intro fs options
  let text := "import { jsx as _jsx } from \"https://esm.sh/preact@10/jsx-runtime?external=react,react-dom\";\n" ++
    "export default (()=>/*#__PURE__*/ _jsx(\"div\", \x7b\x7d));\n"
  let old : PackageSpec := { name := "preact", subpath := some "jsx-runtime" }
  let new : PackageSpec := { old with version := some "10" }
  have ho : OrderedMap.IsOrdered fs := by decide +kernel
  obtain ⟨b,hb,hbuild⟩ := exists_eq_ok (x := fs.stage { pins := [("preact","10")] } { importSource := "preact" })
    (p := fun b => b.map (fun m => (m.path,m.template.text,m.template.links)) == [("/App.jsx",text,⟨[],[old]⟩)])
    (by decide +kernel)
  obtain ⟨b',hb',hbuild'⟩ := exists_eq_ok (x := fs.stage {} options)
    (p := fun b => b.map (fun m => (m.path,m.template.text,m.template.links)) == [("/App.jsx",text,⟨[],[new]⟩)])
    (by decide +kernel)
  obtain ⟨m,rfl,hm⟩ := List.map_eq_singleton_iff.1 (eq_of_beq hbuild)
  obtain ⟨m',rfl,hm'⟩ := List.map_eq_singleton_iff.1 (eq_of_beq hbuild')
  simp only [Prod.mk.injEq] at hm hm'
  obtain ⟨hpath,htext,hlinks⟩ := hm
  obtain ⟨hpath',htext',hlinks'⟩ := hm'
  let r := ((empty "t").commit [m]).1
  let fresh := ((empty "t").commit [m']).1
  have hstaged : StagedBuild.IsStaged [m] := ⟨fs,_,_,ho,hb⟩
  have hstaged' : StagedBuild.IsStaged [m'] := ⟨fs,_,_,ho,hb'⟩
  have hempty := sound_empty "t"
  have hsame : r.isSame m' = true := by
    refine isSame_of_stage hempty ho hb hb' List.mem_cons_self List.mem_cons_self (hpath'.trans hpath.symm)
      (htext'.trans htext.symm) ?_
    rw [hlinks,hlinks']
  have hcommit : r.commit [m'] = (r,{ reused := 1 }) := by
    refine commit_of_same (fun p hp => ?_) (List.forall_mem_singleton.2 hsame)
    have hmem := (contains_commit hempty hstaged.nodup_paths).1 hp
    rw [StagedBuild.paths,List.map_singleton,hpath] at hmem
    rwa [StagedBuild.paths,List.map_singleton,hpath']
  have hpackages : r.packages = [old] := by
    rw [(keepsPackages_empty "t").packages_commit hempty hstaged,List.flatMap_singleton,hlinks]
    rfl
  have hpackages' : fresh.packages = [new] := by
    rw [(keepsPackages_empty "t").packages_commit hempty hstaged',List.flatMap_singleton,hlinks']
    rfl
  have hmap : ∀ r : Registry, r.modules.keys = ["/App.jsx"] → (ImportMap.build r {}).get? "preact/jsx-runtime" =
      OrderedMap.find? "preact/jsx-runtime" (ImportMap.packageEntries r {}) := by
    intro r hkeys
    have hnone : ∀ form ∈ "/App.jsx" :: ImportMap.shortForms "/App.jsx",
        "preact/jsx-runtime" ∉ ImportMap.aliases form := by decide +kernel
    rw [ImportMap.get?_build,ImportMap.find?_ownEntries_eq_none,Option.none_or]
    rw [hkeys]
    refine List.forall_mem_singleton.2 fun hkey => ?_
    obtain ⟨form,hform,halias,-⟩ := ImportMap.mem_keysOf_iff.1 hkey
    exact hnone form hform halias
  refine ⟨[m],r,{ reused := 1 },fresh,_,hb,?_,recompileAll_of_stage hb' (empty "t"),hpackages,hpackages',?_,?_⟩
  · rw [← hcommit]
    exact recompileAll_of_stage hb' r
  · rw [hmap r ((keys_commit hempty hstaged).trans (congrArg ([·]) hpath)),ImportMap.packageEntries,hpackages]
    decide +kernel
  · rw [hmap fresh ((keys_commit hempty hstaged').trans (congrArg ([·]) hpath')),ImportMap.packageEntries,hpackages']
    decide +kernel

end Registry

end PreviewCompiler
