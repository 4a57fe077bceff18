import PreviewCompiler.Proofs.Compile.Places
import PreviewCompiler.Proofs.Package.Bare
import PreviewCompiler.Proofs.Preview.Aliases
import PreviewCompiler.Proofs.Registry.FinalCode

namespace PreviewCompiler

open Data Script

/-- Is a build that is committed one that a snapshot of the project is compiled to with these options? -/
def RegistryCall.IsStagedWith (redirects : Redirects) (options : TransformOptions) : RegistryCall → Prop
  | commit staged => ∃ fs : FileSet, fs.IsSnapshot ∧ fs.stage redirects options = .ok staged
  | release _ | releaseAll => True

theorem RegistryCall.IsStagedWith.isStaged {redirects : Redirects} {options : TransformOptions} {call : RegistryCall}
    (h : call.IsStagedWith redirects options) : call.IsStaged := by
  cases call with
  | commit staged =>
    obtain ⟨fs,hfs,hstage⟩ := h
    exact ⟨fs,redirects,options,hfs.ordered,hstage⟩
  | release | releaseAll => trivial

theorem RegistryCall.isStagedWith_of_isOk {redirects : Redirects} {options : TransformOptions} {fs : FileSet}
    (hfs : fs.IsSnapshot) (h : (fs.stage redirects options).isOk = true) :
    IsStagedWith redirects options (.commit ((fs.stage redirects options).toOption.getD [])) :=
  ⟨fs,hfs,eq_ok_of_isOk h []⟩

namespace Registry

variable {redirects : Redirects} {options : TransformOptions} {r : Registry} {space path : String}
  {calls : List RegistryCall} {c : CompiledModule} {p : PackageSpec}

theorem pairwise_packages (r : Registry) : r.packages.Pairwise (·.sortKey < ·.sortKey) :=
  List.foldlRecOn (motive := fun ps : List PackageSpec => ps.Pairwise (·.sortKey < ·.sortKey)) _ _ .nil
    fun _ h p _ => PackageSpec.pairwise_insert h p

/-- The modules of a run are at paths of the snapshots. -/
theorem isCanonical_of_module? (hcalls : ∀ call ∈ calls, call.IsStagedWith redirects options)
    (h : ((empty space).run calls).module? path = some c) : Path.IsCanonical path := by
  obtain ⟨before,staged,rest,m,own,rfl,hm,rfl,rfl⟩ := registeredBy_of_run (fun call hc => (hcalls call hc).isStaged) h
  obtain ⟨fs,hfs,hstage⟩ := hcalls _ (List.mem_append_right _ List.mem_cons_self)
  have hpath := (FileSet.mem_paths_of_stage hfs.ordered hstage).1 (StagedBuild.mem_paths.2 ⟨m,hm,rfl⟩)
  exact hfs.canonical_of_isFile hpath.1

/-- Does a registered module import a package, as a file that one of the commits has compiled?  The `targets` are the
addresses that this commit has put in the places of its placeholders. -/
def Imported (space : String) (calls : List RegistryCall) (redirects : Redirects) (options : TransformOptions)
    (path : String) (c : CompiledModule) (p : PackageSpec) (targets : List String) : Prop :=
  ∃ (before : List RegistryCall) (staged : StagedBuild) (fs : FileSet) (content : String) (dialect : Dialect)
    (program : Program), before ++ [.commit staged] <+: calls ∧ fs.IsSnapshot ∧
    fs.stage redirects options = .ok staged ∧ (path,content) ∈ fs.modules ∧
    SourceKind.ofPath path = .script dialect.types dialect.markup ∧
    Program.read dialect content.toList = .ok program ∧
    targets = ((empty space).run (before ++ [.commit staged])).targets c.links.modules ∧
    Surroundings.Imports ⟨path,fs,redirects⟩ (program.lower dialect options) options.minify c.links.modules targets p
      c.code

/-- The addresses of modules are in the space of their registry. -/
theorem fenced_of_mem_targets {n : Nat} {paths : List String} {t : String} (h : r.Sound)
    (hrefs : ∀ d ∈ paths, ∃ ref, r.reference? d = some ref) (hspace : FreeOfPlaceholders n r.blobs.space)
    (ht : t ∈ r.targets paths) : ∀ i < n, Text.Fenced (placeholder i).toList t.toList := by
  intro i hi
  obtain ⟨d,hd,rfl⟩ := List.mem_map.1 ht
  obtain ⟨ref,href⟩ := hrefs d hd
  rw [href]
  refine Reference.fenced ?_
  rw [h.space_of_reference? href]
  exact hspace i hi

/-- A module imports its packages, and an address is in its code as it was in the template exactly if it spells no
placeholder. -/
theorem exists_imported (hcalls : ∀ call ∈ calls, call.IsStagedWith redirects options)
    (hc : ((empty space).run calls).module? path = some c) (hp : p ∈ c.links.packages) :
    ∃ targets, Imported space calls redirects options path c p targets ∧ ∀ text : String,
      (FreeOfPlaceholders c.links.modules.length text → substitute text targets = text) ∧
      (FreeOfPlaceholders c.links.modules.length space → substitute text targets = text →
        FreeOfPlaceholders c.links.modules.length text) := by
  have hstaged : ∀ call ∈ calls, call.IsStaged := fun call hc => (hcalls call hc).isStaged
  obtain ⟨before,staged,rest,m,own,rfl,hm,rfl,rfl⟩ := registeredBy_of_run hstaged hc
  have hbefore : ((empty space).run before).Sound :=
    (sound_empty space).run fun call hc => hstaged call (List.mem_append_left _ hc)
  have hs : staged.IsStaged := hstaged _ (List.mem_append_right _ List.mem_cons_self)
  obtain ⟨fs,hfs,hstage⟩ := hcalls _ (List.mem_append_right _ List.mem_cons_self)
  obtain ⟨⟨path,content⟩,hmem,hcompile,-⟩ := FileSet.exists_of_mem_stage hstage hm
  obtain rfl : m.path = path := (Template.of_compile hcompile).1
  have hafter : (empty space).run (before ++ [.commit staged]) = (((empty space).run before).commit staged).1 :=
    run_append_singleton ..
  have hsound : ((empty space).run (before ++ [.commit staged])).Sound := hafter ▸ hbefore.commit hs.nodup_paths
  let targets := ((empty space).run (before ++ [.commit staged])).targets m.template.links.modules
  have hlength : targets.length = m.template.links.modules.length := List.length_map _
  obtain ⟨dialect,program,hkind,hread,himports⟩ := Template.imports_of_compile hcompile hp targets
  refine ⟨targets,⟨before,staged,fs,content,dialect,program,⟨rest,?_⟩,hfs,hstage,hmem,hkind,hread,rfl,himports⟩,?_⟩
  · rw [List.append_assoc]
    rfl
  · refine fun text => ⟨fun hfree => ?_,fun hspace heq => ?_⟩
    · exact substituteFrom_of_free (by rwa [hlength,Nat.zero_add])
    · refine hlength ▸ (substitute_eq_self_iff fun t ht => ?_).1 heq
      rw [hlength]
      refine fenced_of_mem_targets hsound (fun d hd => ?_) ?_ ht
      · rw [hafter]
        exact exists_reference_of_link hbefore hs hm hd
      · rw [space_run]
        exact hspace

end Registry

namespace ImportMap

variable {redirects : Redirects} {options : TransformOptions} {r : Registry} {space key : String}
  {calls : List RegistryCall} {p : PackageSpec}

/-- The first package that is called like a key has it. -/
theorem find?_packageEntries (r : Registry) (redirects : Redirects) (key : String) :
    OrderedMap.find? key (packageEntries r redirects) =
      ((neededPackages r).find? (·.bare == key)).map redirects.urlFor := by
  have hentries : packageEntries r redirects = ((neededPackages r).map fun p => (p.bare,redirects.urlFor p)).foldl
      (fun m e => OrderedMap.insertNew e.1 e.2 m) [] := by
    rw [List.foldl_map]
    rfl
  rw [hentries,OrderedMap.find?_foldl_insertNew,OrderedMap.find?_nil,Option.none_or]
  induction neededPackages r with
  | nil => rfl
  | cons p ps ih =>
    rw [List.map_cons,List.find?_cons,OrderedMap.find?]
    by_cases hkey : p.bare = key
    · rw [if_pos hkey.symm,beq_iff_eq.2 hkey]
      rfl
    · rw [if_neg (Ne.symm hkey),beq_false_of_ne hkey]
      exact ih

/-- Neither what every page imports nor another version comes before a package that is imported without one. -/
theorem find?_neededPackages (hcalls : ∀ call ∈ calls, call.IsStaged)
    (hp : p ∈ ((Registry.empty space).run calls).packages) (hversion : p.version = none) :
    (neededPackages ((Registry.empty space).run calls)).find? (·.bare == p.bare) = some p := by
  have hnamed : ∀ q ∈ neededPackages ((Registry.empty space).run calls), q.IsNamed := fun q hq =>
    isNamed_of_mem_neededPackages hcalls hq
  have hruntime : ∀ q ∈ runtimePackages.filterMap PackageSpec.parse?, q.version = none := by decide +kernel
  rw [neededPackages,List.find?_append]
  cases hfound : (runtimePackages.filterMap PackageSpec.parse?).find? (·.bare == p.bare) with
  | none =>
    exact PackageSpec.find?_bare_of_version_eq_none (Registry.pairwise_packages _)
      (fun q hq => hnamed q (List.mem_append_right _ hq)) hp hversion
  | some q =>
    have hq := List.mem_of_find?_eq_some hfound
    have hsame := (hnamed p (List.mem_append_right _ hp)).eq_of_bare (hnamed q (List.mem_append_left _ hq))
      (beq_iff_eq.1 (List.find?_some (p := fun q : PackageSpec => q.bare == p.bare) hfound))
    rw [hruntime q hq,← hversion] at hsame
    rw [hsame,Option.some_or]

/-- A key of a module looks like a file of the project. -/
theorem hasFront_of_contains_ownEntries (hcalls : ∀ call ∈ calls, call.IsStagedWith redirects options)
    (h : OrderedMap.contains key (ownEntries ((Registry.empty space).run calls)) = true) :
    Text.hasFront "/" key = true ∨ Text.hasFront "@/" key = true := by
  obtain ⟨v,hv⟩ := Option.isSome_iff_exists.1 h
  obtain ⟨e,he,hkey,-⟩ := mem_ownEntries (OrderedMap.mem_of_find? hv)
  obtain ⟨form,hform,halias,-⟩ := mem_keysOf_iff.1 hkey
  have hsound := (Registry.sound_empty space).run fun call hc => (hcalls call hc).isStaged
  have hmod : ((Registry.empty space).run calls).module? e.1 = some e.2 :=
    (OrderedMap.find?_eq_some_iff hsound.ordered).2 he
  obtain ⟨cs,hcs⟩ := form_eq_cons (Registry.isCanonical_of_module? hcalls hmod) hform
  simp only [aliases,List.mem_cons,List.not_mem_nil,or_false] at halias
  rcases halias with rfl | rfl
  · refine .inr ?_
    rw [Text.hasFront,String.toList_append,hcs]
    rfl
  · refine .inl ?_
    rw [Text.hasFront,hcs]
    rfl

/-- What a package is called is no key of a module. -/
theorem find?_ownEntries_of_contains_packageEntries (hcalls : ∀ call ∈ calls, call.IsStagedWith redirects options)
    {redirects' : Redirects}
    (h : OrderedMap.contains key (packageEntries ((Registry.empty space).run calls) redirects') = true) :
    OrderedMap.find? key (ownEntries ((Registry.empty space).run calls)) = none := by
  refine Option.not_isSome_iff_eq_none.1 fun hown => ?_
  obtain ⟨v,hv⟩ := Option.isSome_iff_exists.1 h
  obtain ⟨p,hp,heq⟩ := mem_packageEntries (OrderedMap.mem_of_find? hv)
  obtain ⟨rfl,-⟩ := Prod.mk.inj heq
  have hnamed := isNamed_of_mem_neededPackages (fun call hc => (hcalls call hc).isStaged) hp
  have hfront := hasFront_of_contains_ownEntries hcalls hown
  rw [hnamed.not_hasFront_bare.1,hnamed.not_hasFront_bare.2] at hfront
  exact absurd hfront (by decide)

/-- What the import map has for a package is what the packages have for it. -/
theorem get?_build_of_mem_neededPackages (hcalls : ∀ call ∈ calls, call.IsStagedWith redirects options)
    (hp : p ∈ neededPackages ((Registry.empty space).run calls)) (redirects' : Redirects) :
    ∃ q, (neededPackages ((Registry.empty space).run calls)).find? (·.bare == p.bare) = some q ∧
      (build ((Registry.empty space).run calls) redirects').get? p.bare = some (redirects'.urlFor q) := by
  obtain ⟨q,hq⟩ := Option.isSome_iff_exists.1
    (List.find?_isSome.2 ⟨p,hp,beq_self_eq_true p.bare⟩ : (List.find? (·.bare == p.bare) _).isSome = true)
  have hpackage : OrderedMap.find? p.bare (packageEntries ((Registry.empty space).run calls) redirects') =
      some (redirects'.urlFor q) := by rw [find?_packageEntries,hq,Option.map_some]
  have hown := find?_ownEntries_of_contains_packageEntries hcalls (Option.isSome_of_eq_some hpackage)
  exact ⟨q,hq,by rw [get?_build,hown,Option.none_or,hpackage]⟩

/-- After any commits and releases with the same redirects and options, the import map has a key for each package, and a
package that is imported without a version is behind it at the address that the importing modules have been compiled
to.  No key is both of a module and of a package.  In the code of a module the address is what it was exactly if it
spells no placeholder of an import. -/
theorem packages_of_build (space : String) (calls : List RegistryCall) (redirects : Redirects)
    (options : TransformOptions) (hcalls : ∀ call ∈ calls, call.IsStagedWith redirects options) :
    let r := (Registry.empty space).run calls
    (∀ p ∈ r.packages, (build r redirects).contains p.bare = true ∧
      (p.version = none → (build r redirects).get? p.bare = some (redirects.urlFor p)) ∧
      ∃ path c, r.module? path = some c ∧ p ∈ c.links.packages) ∧
    (∀ key, OrderedMap.contains key (ownEntries r) = true →
      OrderedMap.contains key (packageEntries r redirects) = false) ∧
    (merge (ownEntries r) (packageEntries r redirects)).2 = [] ∧
    ∀ path c, r.module? path = some c → ∀ p ∈ c.links.packages,
      ∃ targets, Registry.Imported space calls redirects options path c p targets ∧
        let text := Write.quoted (redirects.urlFor p)
        (FreeOfPlaceholders c.links.modules.length text → substitute text targets = text) ∧
        (FreeOfPlaceholders c.links.modules.length space → substitute text targets = text →
          FreeOfPlaceholders c.links.modules.length text) := by
  intro r
  have hstaged : ∀ call ∈ calls, call.IsStaged := fun call hc => (hcalls call hc).isStaged
  refine ⟨fun p hp => ?_,fun key hkey => Bool.eq_false_iff.2 fun hpackage => ?_,?_,fun path c hc p hp => ?_⟩
  · obtain ⟨q,hq,hget⟩ := get?_build_of_mem_neededPackages hcalls (List.mem_append_right _ hp) redirects
    refine ⟨Option.isSome_of_eq_some hget,fun hversion => ?_,?_⟩
    · rw [find?_neededPackages hstaged hp hversion] at hq
      obtain rfl := Option.some.inj hq
      exact hget
    · obtain ⟨⟨path,c⟩,he,hpc⟩ := Registry.exists_of_mem_packages hp
      have hsound := (Registry.sound_empty space).run hstaged
      exact ⟨path,c,(OrderedMap.find?_eq_some_iff hsound.ordered).2 he,hpc⟩
  · rw [OrderedMap.contains,find?_ownEntries_of_contains_packageEntries hcalls hpackage] at hkey
    contradiction
  · refine List.filterMap_eq_nil_iff.2 fun e he => ?_
    have hpackage := OrderedMap.contains_iff_mem_keys.2 (List.mem_map_of_mem he)
    rw [Option.map_eq_none_iff]
    exact find?_ownEntries_of_contains_packageEntries hcalls hpackage
  · obtain ⟨targets,himported,htext⟩ := Registry.exists_imported hcalls hc hp
    exact ⟨targets,himported,htext _⟩

/-- A package with a version, without one, and a part of it. -/
theorem packages_of_build_of_versions :
    let fs : FileSet := .ofFiles [("/App.js","import 'lodash@4';\nimport 'lodash';\nimport './b.js';\n"),
      ("/b.js","import 'lodash/fp';\n")]
    let redirects : Redirects := { pins := [("lodash","4.17.21")] }
    let calls : List RegistryCall := [.commit ((fs.stage redirects {}).toOption.getD [])]
    let r := (Registry.empty "preview").run calls
    let url := "https://esm.sh/lodash@4.17.21?external=react,react-dom"
    r.packages = [⟨"lodash",none,none⟩,⟨"lodash",none,some "fp"⟩,⟨"lodash",some "4",none⟩] ∧
    (build r redirects).get? "lodash" = some url ∧ (build r redirects).contains "lodash/fp" = true ∧
    (merge (ownEntries r) (packageEntries r redirects)).2 = [] ∧
    ∃ c targets, r.module? "/App.js" = some c ∧
      Registry.Imported "preview" calls redirects {} "/App.js" c ⟨"lodash",none,none⟩ targets ∧
      substitute (Write.quoted url) targets = Write.quoted url := by
  intro fs redirects calls r url
  have hrun : (fs.stage redirects {}).isOk = true ∧
      r.packages = [⟨"lodash",none,none⟩,⟨"lodash",none,some "fp"⟩,⟨"lodash",some "4",none⟩] ∧
      (r.module? "/App.js").map (·.links) = some ⟨["/b.js"],[⟨"lodash",none,none⟩,⟨"lodash",some "4",none⟩]⟩ := by
    decide +kernel
  have hurl : redirects.urlFor ⟨"lodash",none,none⟩ = url := by decide +kernel
  have hfree : FreeOfPlaceholders 1 (Write.quoted url) := by decide +kernel
  have hfs : fs.IsSnapshot := FileSet.isSnapshot_ofFiles _
  clear_value fs redirects
  obtain ⟨hok,hpackages,hlinks⟩ := hrun
  have hcalls : ∀ call ∈ calls, call.IsStagedWith redirects {} :=
    List.forall_mem_singleton.2 (RegistryCall.isStagedWith_of_isOk hfs hok)
  obtain ⟨hkeys,-,hmerge,hcode⟩ := packages_of_build "preview" calls redirects {} hcalls
  obtain ⟨c,hc,hlinks⟩ := Option.map_eq_some_iff.1 hlinks
  have hlodash := hkeys ⟨"lodash",none,none⟩ (hpackages ▸ List.mem_cons_self)
  have hpart := hkeys ⟨"lodash",none,some "fp"⟩ (hpackages ▸ List.mem_cons_of_mem _ List.mem_cons_self)
  obtain ⟨targets,himported,htext,-⟩ :=
    hcode "/App.js" c hc ⟨"lodash",none,none⟩ (by rw [hlinks]; exact List.mem_cons_self)
  rw [hurl,hlinks] at htext
  exact ⟨hpackages,hurl ▸ hlodash.2.1 rfl,hpart.1,hmerge,c,targets,hc,himported,htext hfree⟩

/-- A package that is called like the placeholder of an import is imported from another address than the map has. -/
theorem package_of_spelled_placeholder :
    let fs : FileSet := .ofFiles
      [("/App.js","import './b.js';\nimport '__livepreview_dep_0__';\n"),("/b.js","")]
    let r := (((Registry.empty "t").recompileAll fs {} {}).toOption.getD (.empty "t",{})).1
    let p : PackageSpec := ⟨"__livepreview_dep_0__",none,none⟩
    ((Registry.empty "t").recompileAll fs {} {}).isOk = true ∧ r.packages = [p] ∧
    (build r {}).get? p.bare = some "https://esm.sh/__livepreview_dep_0__@latest?external=react,react-dom" ∧
    (r.module? "/App.js").map (·.code) = some ("import \"/@blob/t/2.js\";\n" ++
      "import \"https://esm.sh//@blob/t/2.js@latest?external=react,react-dom\";\n") ∧
    ¬ ∀ c ∈ r.module? "/App.js", p ∈ c.links.packages → ∀ url ∈ (build r {}).get? p.bare,
      c.code = "import \"/@blob/t/2.js\";\nimport \"" ++ url ++ "\";\n" := by
  decide +kernel

end ImportMap

end PreviewCompiler
