import PreviewCompiler.Proofs.Compile.Candidates
import PreviewCompiler.Proofs.Compile.PackageNames
import PreviewCompiler.Proofs.Compile.SameFiles
import PreviewCompiler.Proofs.Preview.ImportMap
import PreviewCompiler.Proofs.Registry.Origin

namespace PreviewCompiler

open Data

namespace Resolution

variable {base path : String} {isThere : String → Bool}

/-- The candidates that are looked for before a path. -/
def before (base path : String) : List String := (candidates base).takeWhile (· != path)

theorem probe_eq_some_iff : probe base isThere = some path ↔
    path ∈ candidates base ∧ isThere path = true ∧ ∀ q ∈ before base path, isThere q = false :=
  find?_eq_some_iff_takeWhile

/-- A path that exists stands for itself. -/
theorem probe_self (hroot : path ≠ "/") (h : isThere path = true) : probe path isThere = some path := by
  rw [probe,candidates,if_neg hroot,List.cons_append,List.find?_cons_of_pos h]

end Resolution

namespace ImportMap

open Resolution

variable {path form key : String}

theorem dropEnd?_eq_some_iff {tail s front : String} : dropEnd? tail s = some front ↔ s = front ++ tail := by
  unfold dropEnd?
  constructor
  · intro h
    split at h
    · rename_i hsuffix
      obtain ⟨start,hstart⟩ := List.isSuffixOf_iff_suffix.1 hsuffix
      obtain rfl := Option.some.inj h
      rw [← String.toList_inj,String.toList_append,String.toList_ofList,← hstart,List.length_append,
        Nat.add_sub_cancel,List.take_left]
    · contradiction
  · rintro rfl
    have hsuffix : tail.toList <:+ (front ++ tail).toList := by
      rw [String.toList_append]
      exact List.suffix_append _ _
    rw [if_pos (List.isSuffixOf_iff_suffix.2 hsuffix),String.toList_append,List.length_append,Nat.add_sub_cancel,
      List.take_left,String.ofList_toList]

/-- No extension ends in another one. -/
theorem extension_unique {a b e e' : String} (he : e ∈ extensions) (he' : e' ∈ extensions) (h : a ++ e = b ++ e') :
    e = e' ∧ a = b := by
  have hends := congrArg (fun s : String => s.toList.reverse) h
  have hsame : e = e' := by
    simp only [extensions,List.mem_cons,List.not_mem_nil,or_false] at he he'
    rcases he with rfl | rfl | rfl | rfl <;> rcases he' with rfl | rfl | rfl | rfl <;>
      first | rfl | simp at hends
  subst hsame
  have hlist : a.toList ++ e.toList = b.toList ++ e.toList := by rw [← String.toList_append,h,String.toList_append]
  exact ⟨rfl,String.toList_inj.1 (List.append_cancel_right hlist)⟩

/-- The shorter forms of a path with an extension: without it, and the directory of an index file. -/
theorem mem_shortForms_iff : form ∈ shortForms path ↔ ∃ e ∈ extensions, ∃ stem, path = stem ++ e ∧
    (form = stem ∨ form ≠ "" ∧ ∃ f ∈ indexFiles, path = form ++ ("/" ++ f)) := by
  have hindex : form ∈ (indexFiles.filterMap fun f => dropEnd? ("/" ++ f) path).filter (· != "") ↔
      form ≠ "" ∧ ∃ f ∈ indexFiles, path = form ++ ("/" ++ f) := by
    rw [List.mem_filter,List.mem_filterMap,and_comm]
    simp only [dropEnd?_eq_some_iff,bne_iff_ne]
  unfold shortForms
  cases hstem : extensions.findSome? (dropEnd? · path) with
  | none =>
    refine ⟨fun h => absurd h List.not_mem_nil,?_⟩
    rintro ⟨e,he,stem,hpath,-⟩
    have hnone := List.findSome?_eq_none_iff.1 hstem e he
    rw [dropEnd?_eq_some_iff.2 hpath] at hnone
    contradiction
  | some stem =>
    obtain ⟨e,he,hfound⟩ := List.exists_of_findSome?_eq_some hstem
    have hpath := dropEnd?_eq_some_iff.1 hfound
    simp only [List.mem_cons,hindex]
    constructor
    · exact fun h => ⟨e,he,stem,hpath,h⟩
    · rintro ⟨e',he',stem',hpath',h⟩
      rwa [(extension_unique he he' (hpath.symm.trans hpath')).2]

theorem length_pos_of_mem_extensions : ∀ e ∈ extensions, 0 < e.toList.length := by decide

theorem slash_not_mem_indexFile : ∀ f ∈ indexFiles, f.toList ≠ [] ∧ '/' ∉ f.toList := by decide

/-- A path that a base may stand for has the base as a form. -/
theorem mem_forms_of_mem_candidates {base : String} (hbase : Path.IsCanonical base) (hroot : base ≠ "/")
    (h : path ∈ candidates base) : base ∈ path :: shortForms path := by
  have hcases := cases_of_mem_candidates h
  rw [hbase.dropEndSlashes_eq hroot] at hcases
  rcases hcases with rfl | ⟨-,e,he,rfl⟩ | ⟨f,hf,rfl⟩
  · exact List.mem_cons_self
  · exact List.mem_cons_of_mem _ (mem_shortForms_iff.2 ⟨e,he,base,rfl,.inl rfl⟩)
  · obtain ⟨e,he,rfl⟩ := exists_extension f hf
    refine List.mem_cons_of_mem _ (mem_shortForms_iff.2 ⟨e,he,base ++ "/index",?_,.inr ⟨?_,_,hf,?_⟩⟩)
    · simp only [String.append_assoc]
      rfl
    · obtain ⟨cs,hcs⟩ := hbase.eq_cons
      rintro rfl
      contradiction
    · rw [String.append_assoc]

/-- A form starts like its path, with a slash. -/
theorem form_eq_cons (hpath : Path.IsCanonical path) (h : form ∈ path :: shortForms path) :
    ∃ cs, form.toList = '/' :: cs := by
  obtain ⟨cs,hcs⟩ := hpath.eq_cons
  have hfront : ∀ {a b : String}, path = a ++ b → a ≠ "" → ∃ cs, a.toList = '/' :: cs := by
    intro a b hab ha
    cases hl : a.toList with
    | nil => exact absurd (String.toList_inj.1 hl) ha
    | cons c as =>
      rw [hab,String.toList_append,hl] at hcs
      exact ⟨as,by rw [(List.cons.inj hcs).1]⟩
  rcases List.mem_cons.1 h with rfl | h
  · exact ⟨cs,hcs⟩
  · obtain ⟨e,he,stem,hstem,rfl | ⟨hne,f,hf,hindex⟩⟩ := mem_shortForms_iff.1 h
    · refine hfront hstem ?_
      rintro rfl
      rw [hstem] at hcs
      simp only [extensions,List.mem_cons,List.not_mem_nil,or_false] at he
      rcases he with rfl | rfl | rfl | rfl <;> simp at hcs
    · exact hfront hindex hne

theorem front_of_index (hpath : Path.IsCanonical path) {front f : String} (hf : f ∈ indexFiles)
    (h : path = front ++ ("/" ++ f)) :
    ∃ segs : List (List Char), (∀ s ∈ segs, Path.IsSegment s) ∧ front.toList = segs.flatMap ('/' :: ·) := by
  obtain ⟨hne,hslash⟩ := slash_not_mem_indexFile f hf
  refine hpath.front_eq ?_ hne hslash
  rw [h,String.toList_append,String.toList_append]
  rfl

/-- If the resolver looks for a path behind a form of the path, the form is canonical. -/
theorem isCanonical_of_mem_candidates (hpath : Path.IsCanonical path) (hform : form ∈ path :: shortForms path)
    (h : path ∈ candidates (Path.normalize form)) : Path.IsCanonical form := by
  obtain ⟨cs,hcs⟩ := form_eq_cons hpath hform
  have hne : form ≠ "" := by
    rintro rfl
    contradiction
  rcases List.mem_cons.1 hform with rfl | hform
  · exact hpath
  obtain ⟨e,he,stem,hstem,rfl | ⟨-,f,hf,hindex⟩⟩ := mem_shortForms_iff.1 hform
  · rcases cases_of_mem_candidates h with hsame | ⟨-,e',he',hext⟩ | ⟨f,hf,hindex⟩
    -- The path is longer than its form, and normalizing does not lengthen that.
    · have hlength := Path.length_normalize_le hcs
      have hpos := length_pos_of_mem_extensions e he
      rw [← hsame,hstem,String.toList_append,List.length_append] at hlength
      omega
    · rw [(extension_unique he he' (hstem.symm.trans hext)).2]
      exact Path.isCanonical_normalize form
    · rw [String.append_assoc] at hindex
      obtain ⟨segs,hsegs,hfront⟩ := front_of_index hpath hf hindex
      obtain ⟨e',he',hf'⟩ := exists_extension f hf
      rw [hf',← String.append_assoc,← String.append_assoc,hstem] at hindex
      have hform := (extension_unique he he' hindex).2
      have hsegs' : ∀ s ∈ segs ++ ["index".toList], Path.IsSegment s :=
        List.forall_mem_append.2 ⟨hsegs,List.forall_mem_singleton.2 isSegment_index⟩
      refine Path.isCanonical_of_flatMap hsegs' hne ?_
      rw [hform,String.toList_append,String.toList_append,hfront,List.flatMap_append,List.append_assoc]
      rfl
  · obtain ⟨segs,hsegs,hfront⟩ := front_of_index hpath hf hindex
    exact Path.isCanonical_of_flatMap hsegs hne hfront

/-- The path that a key means: the key without the `@` in front of it. -/
def pathOfKey (key : String) : String :=
  match key.toList with
  | '@' :: cs => String.ofList cs
  | _ => key

theorem pathOfKey_of_mem_aliases {cs : List Char} (hform : form.toList = '/' :: cs) (h : key ∈ aliases form) :
    pathOfKey key = form := by
  simp only [aliases,List.mem_cons,List.not_mem_nil,or_false] at h
  rcases h with rfl | rfl
  · simp [pathOfKey]
  · rw [pathOfKey,hform]
    rfl

/-- A key is looked for like the path that it means, whoever imports it. -/
theorem resolve_key_iff (fs : FileSet) (importer : String)
    (h : Text.hasFront "/" key = true ∨ Text.hasFront "@/" key = true) : resolve fs key importer = .file path ↔
      probe (Path.normalize (pathOfKey key)) (FileSet.isFile · fs) = some path := by
  have hlocal : isLocal key = true := by
    rcases h with h | h <;> simp [isLocal,h]
  have hbase : base key importer = Path.normalize (pathOfKey key) := by
    rcases h with h | h
    · obtain ⟨rest,hrest⟩ := List.isPrefixOf_iff_prefix.1 h
      have hkey : key.toList = '/' :: rest := hrest.symm
      rw [base,pathOfKey,hkey]
      rfl
    · obtain ⟨rest,hrest⟩ := List.isPrefixOf_iff_prefix.1 h
      have hkey : key.toList = '@' :: '/' :: rest := hrest.symm
      rw [base,pathOfKey,hkey]
      simp only [Path.normalize,String.toList_ofList,Path.segments_cons_slash]
  rw [resolve_iff_of_isLocal hlocal,hbase]

variable {r : Registry}

/-- The keys of a registered module mean forms for which it is found. -/
theorem probe_of_mem_keysOf (hpath : Path.IsCanonical path) (hroot : path ≠ "/") (hr : r.contains path = true)
    (h : key ∈ keysOf r path) : pathOfKey key ∈ path :: shortForms path ∧
      probe (pathOfKey key) (Registry.contains · r) = some path := by
  obtain ⟨form,hform,halias,hmeans⟩ := mem_keysOf_iff.1 h
  obtain ⟨cs,hcs⟩ := form_eq_cons hpath hform
  rw [pathOfKey_of_mem_aliases hcs halias]
  refine ⟨hform,?_⟩
  rcases hmeans with rfl | hmeans
  · obtain ⟨ds,hds⟩ := hpath.eq_cons
    have hself : key ∈ aliases key := List.mem_cons_of_mem _ List.mem_cons_self
    obtain rfl := (pathOfKey_of_mem_aliases hcs halias).symm.trans (pathOfKey_of_mem_aliases hds hself)
    exact probe_self hroot hr
  · exact beq_iff_eq.1 hmeans

theorem mem_keysOf_of_probe {base : String} (hbase : Path.IsCanonical base) (hroot : base ≠ "/")
    (h : probe base (Registry.contains · r) = some path) (hkey : key ∈ aliases base) : key ∈ keysOf r path := by
  have hform := mem_forms_of_mem_candidates hbase hroot (probe_eq_some_iff.1 h).1
  exact mem_keysOf_iff.2 ⟨base,hform,hkey,.inr (beq_iff_eq.2 h)⟩

end ImportMap

/-- Are the registered modules those of a snapshot? -/
structure Registry.Mirrors (fs : FileSet) (r : Registry) : Prop where
  sound : r.Sound
  contains_iff : ∀ path, r.contains path = true ↔ fs.IsModuleFile path

theorem FileSet.IsSnapshot.canonical_of_isFile {fs : FileSet} {path : String} (h : fs.IsSnapshot)
    (hf : FileSet.isFile path fs = true) : Path.IsCanonical path := by
  obtain ⟨e,he,-⟩ := (Option.any_eq_true _ _).1 hf
  exact h.canonical _ (OrderedMap.mem_of_find? he)

theorem FileSet.IsModuleFile.ne_root {fs : FileSet} {path : String} (h : fs.IsModuleFile path) : path ≠ "/" := by
  rintro rfl
  exact absurd h.2 (by decide)

theorem Registry.exists_of_mem_packages {r : Registry} {p : PackageSpec} (h : p ∈ r.packages) :
    ∃ e ∈ r.modules, p ∈ e.2.links.packages := by
  have hall : ∀ qs : List PackageSpec, p ∈ qs.foldl (fun ps q => q.insert ps) [] → p ∈ qs := by
    intro qs
    refine List.foldlRecOn (motive := fun ps => p ∈ ps → p ∈ qs) qs _ (fun h => absurd h List.not_mem_nil) ?_
    intro ps ih q hq h
    rcases PackageSpec.mem_insert_iff.1 h with rfl | h
    · exact hq
    · exact ih h
  exact List.mem_flatMap.1 (hall _ h)

theorem Registry.mirrors_commit {fs : FileSet} {redirects : Redirects} {options : TransformOptions} {r : Registry}
    {staged : StagedBuild} (ho : OrderedMap.IsOrdered fs) (hr : r.Sound) (hs : fs.stage redirects options = .ok staged) :
    (r.commit staged).1.Mirrors fs := by
  have hstaged : staged.IsStaged := ⟨fs,redirects,options,ho,hs⟩
  refine ⟨hr.commit hstaged.nodup_paths,fun path => ?_⟩
  rw [contains_commit hr hstaged.nodup_paths,FileSet.mem_paths_of_stage ho hs]

namespace ImportMap

open Resolution

variable {fs : FileSet} {r : Registry} {base key path : String}

/-- What is found among all files is found among the modules if it is one. -/
theorem probe_modules (h : r.Mirrors fs) (hp : probe base (FileSet.isFile · fs) = some path)
    (hm : Path.isModule path = true) : probe base (Registry.contains · r) = some path := by
  obtain ⟨hmem,hfile,hbefore⟩ := probe_eq_some_iff.1 hp
  refine probe_eq_some_iff.2 ⟨hmem,(h.contains_iff path).2 ⟨hfile,hm⟩,fun q hq => ?_⟩
  refine Bool.eq_false_iff.2 fun hcontains => ?_
  exact absurd (((h.contains_iff q).1 hcontains).1.symm.trans (hbefore q hq)) (by decide)

/-- Both keys of a base lead to the module that it means. -/
theorem find?_ownEntries_of_probe {c : CompiledModule} (hfs : fs.IsSnapshot) (h : r.Mirrors fs)
    (hbase : Path.IsCanonical base) (hroot : base ≠ "/") (hp : probe base (Registry.contains · r) = some path)
    (hc : r.module? path = some c) (hkey : key ∈ aliases base) :
    OrderedMap.find? key (ownEntries r) = some c.reference.text := by
  refine find?_ownEntries h.sound.ordered hc (mem_keysOf_of_probe hbase hroot hp hkey) fun q hq hkeyq => ?_
  obtain ⟨cs,hcs⟩ := hbase.eq_cons
  have hfile := (h.contains_iff q).1 hq
  have hprobe := (probe_of_mem_keysOf (hfs.canonical_of_isFile hfile.1) hfile.ne_root hq hkeyq).2
  rw [pathOfKey_of_mem_aliases hcs hkey,hp] at hprobe
  exact (Option.some.inj hprobe).symm

/-- What means a module while it is compiled means it in the browser, with an `@` in front as well. -/
theorem alias_of_resolve (space : String) (calls : List RegistryCall) (fs : FileSet) (redirects redirects' : Redirects)
    (options : TransformOptions) (r : Registry) (summary : CommitSummary) (base importer path : String)
    (hcalls : ∀ c ∈ calls, c.IsStaged) (hfs : fs.IsSnapshot)
    (hr : ((Registry.empty space).run calls).recompileAll fs redirects options = .ok (r,summary))
    (hbase : Path.IsCanonical base) (hroot : base ≠ "/") (hresolve : resolve fs base importer = .file path)
    (hm : Path.isModule path = true) : ∃ ref, r.reference? path = some ref ∧
      (build r redirects').get? base = some ref.text ∧ (build r redirects').get? ("@" ++ base) = some ref.text := by
  have hsound : ((Registry.empty space).run calls).Sound := (Registry.sound_empty space).run hcalls
  obtain ⟨staged,hstaged,rfl⟩ := Registry.exists_staged_of_recompileAll hr
  have hmirrors := Registry.mirrors_commit hfs.ordered hsound hstaged
  obtain ⟨cs,hcs⟩ := hbase.eq_cons
  have hfront : Text.hasFront "/" base = true := by
    rw [Text.hasFront,hcs]
    rfl
  have hmeant : pathOfKey base = base :=
    pathOfKey_of_mem_aliases hcs (List.mem_cons_of_mem _ List.mem_cons_self)
  have hp := (resolve_key_iff fs importer (.inl hfront)).1 hresolve
  rw [hmeant,hbase.normalize_eq] at hp
  have hmodules := probe_modules hmirrors hp hm
  obtain ⟨c,hc⟩ := Option.isSome_iff_exists.1 (probe_eq_some_iff.1 hmodules).2.1
  have hown : ∀ key ∈ aliases base, OrderedMap.find? key (ownEntries _) = some c.reference.text := fun key hkey =>
    find?_ownEntries_of_probe hfs hmirrors hbase hroot hmodules hc hkey
  refine ⟨c.reference,congrArg (Option.map CompiledModule.reference) hc,?_,?_⟩
  · exact get?_build_of_ownEntries (hown base (List.mem_cons_of_mem _ List.mem_cons_self)) redirects'
  · exact get?_build_of_ownEntries (hown ("@" ++ base) List.mem_cons_self) redirects'

/-- Of two index files of a directory one is meant. -/
theorem alias_of_resolve_of_index :
    let fs : FileSet := .ofFiles [("/lib/index.ts",""),("/lib/index.tsx","import '/lib'")]
    ∃ r summary ref, (Registry.empty "preview").recompileAll fs {} {} = .ok (r,summary) ∧
      r.reference? "/lib/index.tsx" = some ref ∧ (build r {}).get? "/lib" = some ref.text ∧
      (build r {}).get? ("@" ++ "/lib") = some ref.text := by
  intro fs
  have hok : ((Registry.empty "preview").recompileAll fs {} {}).toOption.any (fun _ => true) = true := by
    decide +kernel
  obtain ⟨⟨r,summary⟩,hr,-⟩ := exists_eq_ok hok
  obtain ⟨ref,href⟩ := alias_of_resolve "preview" [] fs {} {} {} r summary "/lib" "/App.js" "/lib/index.tsx"
    (fun _ h => absurd h List.not_mem_nil) (FileSet.isSnapshot_ofFiles _) hr (by decide +kernel) (by decide)
    (by decide +kernel) (by decide +kernel)
  exact ⟨r,summary,ref,hr,href⟩

/-- Every package that a page needs has a name of its own. -/
theorem isNamed_of_mem_neededPackages {space : String} {calls : List RegistryCall} {p : PackageSpec}
    (hcalls : ∀ c ∈ calls, c.IsStaged) (h : p ∈ neededPackages ((Registry.empty space).run calls)) : p.IsNamed := by
  rcases List.mem_append.1 h with h | h
  · obtain ⟨specifier,hmem,hp⟩ := List.mem_filterMap.1 h
    have hlocal : ∀ s ∈ runtimePackages, isLocal s = false := by decide
    exact ⟨specifier,hlocal specifier hmem,hp⟩
  · obtain ⟨e,he,hpe⟩ := Registry.exists_of_mem_packages h
    have hmod : ((Registry.empty space).run calls).module? e.1 = some e.2 :=
      (OrderedMap.find?_eq_some_iff ((Registry.sound_empty space).run hcalls).ordered).2 he
    obtain ⟨before,staged,after,m,ref,rfl,hm,-,hc⟩ := Registry.registeredBy_of_run hcalls hmod
    rw [hc] at hpe
    exact (hcalls (.commit staged) (List.mem_append_right _ List.mem_cons_self)).isNamed hm hpe

/-- A key that looks like a file of the project belongs to a module.  The resolver agrees with it unless a file that is
no module comes first, or the key is not canonical. -/
theorem resolve_of_key (space : String) (calls : List RegistryCall) (fs : FileSet) (redirects redirects' : Redirects)
    (options : TransformOptions) (r : Registry) (summary : CommitSummary) (key value : String)
    (hcalls : ∀ c ∈ calls, c.IsStaged) (hfs : fs.IsSnapshot)
    (hr : ((Registry.empty space).run calls).recompileAll fs redirects options = .ok (r,summary))
    (hentry : (key,value) ∈ (build r redirects').imports)
    (hkey : Text.hasFront "/" key = true ∨ Text.hasFront "@/" key = true) :
    ∃ path ref, fs.IsModuleFile path ∧ r.reference? path = some ref ∧ value = ref.text ∧
      ∀ importer, resolve fs key importer = .file path ↔ Path.IsCanonical (pathOfKey key) ∧
        ∀ q ∈ before (pathOfKey key) path, FileSet.isFile q fs = true → Path.isModule q = true := by
  have hsound : ((Registry.empty space).run calls).Sound := (Registry.sound_empty space).run hcalls
  obtain ⟨staged,hstaged,rfl⟩ := Registry.exists_staged_of_recompileAll hr
  have hmirrors := Registry.mirrors_commit hfs.ordered hsound hstaged
  rcases mem_build hentry with hown | hpackage
  · obtain ⟨e,he,hkeys,hvalue⟩ := mem_ownEntries hown
    have hmod := (OrderedMap.find?_eq_some_iff hmirrors.sound.ordered).2 he
    have hcontains : (((Registry.empty space).run calls).commit staged).1.contains e.1 = true :=
      congrArg Option.isSome hmod
    have hfile := (hmirrors.contains_iff e.1).1 hcontains
    have hcanonical := hfs.canonical_of_isFile hfile.1
    obtain ⟨hform,hprobe⟩ := probe_of_mem_keysOf hcanonical hfile.ne_root hcontains hkeys
    obtain ⟨hmem,-,hbefore⟩ := probe_eq_some_iff.1 hprobe
    refine ⟨e.1,e.2.reference,hfile,congrArg (Option.map CompiledModule.reference) hmod,hvalue,fun importer => ?_⟩
    rw [resolve_key_iff fs importer hkey,probe_eq_some_iff]
    constructor
    · rintro ⟨hmem',-,hbefore'⟩
      have hc := isCanonical_of_mem_candidates hcanonical hform hmem'
      rw [hc.normalize_eq] at hbefore'
      exact ⟨hc,fun q hq hf => absurd (hf.symm.trans (hbefore' q hq)) (by decide)⟩
    · rintro ⟨hc,hmodules⟩
      rw [hc.normalize_eq]
      refine ⟨hmem,hfile.1,fun q hq => Bool.eq_false_iff.2 fun hf => ?_⟩
      have hq' := (hmirrors.contains_iff q).2 ⟨hf,hmodules q hq hf⟩
      exact absurd (hq'.symm.trans (hbefore q hq)) (by decide)
  · obtain ⟨p,hp,heq⟩ := mem_packageEntries hpackage
    obtain ⟨rfl,-⟩ := Prod.mk.inj heq
    have hrun : ((Registry.empty space).run (calls ++ [.commit staged])) =
        (((Registry.empty space).run calls).commit staged).1 := Registry.run_append_singleton _ _ _
    have hcalls' : ∀ c ∈ calls ++ [.commit staged], c.IsStaged :=
      List.forall_mem_append.2 ⟨hcalls,List.forall_mem_singleton.2 ⟨fs,redirects,options,hfs.ordered,hstaged⟩⟩
    rw [← hrun] at hp
    obtain ⟨hslash,hat⟩ := (isNamed_of_mem_neededPackages hcalls' hp).not_hasFront_bare
    rw [hslash,hat] at hkey
    exact absurd hkey (by decide)

/-- The directory of an index file, behind an `@`. -/
theorem resolve_of_key_of_index :
    let fs : FileSet := .ofFiles [("/lib/index.ts",""),("/lib/index.tsx","import '/lib'")]
    ∃ r summary, (Registry.empty "preview").recompileAll fs {} {} = .ok (r,summary) ∧
      ("@/lib","/@blob/preview/2.js") ∈ (build r {}).imports ∧
      ∃ path ref, fs.IsModuleFile path ∧ r.reference? path = some ref ∧ "/@blob/preview/2.js" = ref.text ∧
        ∀ importer, resolve fs "@/lib" importer = .file path ↔ Path.IsCanonical (pathOfKey "@/lib") ∧
          ∀ q ∈ before (pathOfKey "@/lib") path, FileSet.isFile q fs = true → Path.isModule q = true := by
  intro fs
  have hok : ((Registry.empty "preview").recompileAll fs {} {}).toOption.any
      (fun result => decide (("@/lib","/@blob/preview/2.js") ∈ (build result.1 {}).imports)) = true := by
    decide +kernel
  obtain ⟨⟨r,summary⟩,hr,hentry⟩ := exists_eq_ok hok
  have hentry := of_decide_eq_true hentry
  exact ⟨r,summary,hr,hentry,resolve_of_key "preview" [] fs {} {} {} r summary "@/lib" "/@blob/preview/2.js"
    (fun _ h => absurd h List.not_mem_nil) (FileSet.isSnapshot_ofFiles _) hr hentry (by decide)⟩

/-- The module without its extension is named like a stylesheet, which the resolver finds first. -/
theorem key_of_stylesheet :
    let fs : FileSet := .ofFiles [("/data.css",""),("/data.css.js","")]
    let r := (((Registry.empty "preview").recompileAll fs {} {}).toOption.getD (.empty "preview",{})).1
    ((Registry.empty "preview").recompileAll fs {} {}).isOk = true ∧
    ¬ ∀ e ∈ (build r {}).imports, Text.hasFront "/" e.1 = true ∨ Text.hasFront "@/" e.1 = true →
      ∃ path, Path.isModule path = true ∧ resolve fs e.1 "/data.css.js" = .file path ∧
        (r.reference? path).map Reference.text = some e.2 := by
  intro fs r
  refine ⟨by decide +kernel,fun h => ?_⟩
  have hentry : ("/data.css","/@blob/preview/1.js") ∈ (build r {}).imports := by decide +kernel
  have hstyle : resolve fs "/data.css" "/data.css.js" = .file "/data.css" := by decide +kernel
  obtain ⟨path,hm,hpath,-⟩ := h _ hentry (.inl (by decide))
  obtain rfl := Resolution.file.inj (hstyle.symm.trans hpath)
  exact absurd hm (by decide)

end ImportMap

end PreviewCompiler
