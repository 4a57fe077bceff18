import PreviewCompiler.Proofs.Command.Writing
import PreviewCompiler.Proofs.Disk.Snapshot
import PreviewCompiler.Proofs.Preview.Aliases
import PreviewCompiler.Proofs.Preview.Session
import PreviewCompiler.Proofs.Registry.FinalCode

namespace PreviewCompiler

open Data

namespace Reference

variable {ref : Reference}

theorem ofText_text (ref : Reference) : RawText.ofText ref.text = Disk.pathOf ref.place := by
  have htext : ref.text = "/" ++ "/".intercalate ["@blob",ref.space,toString ref.id ++ ".js"] :=
    String.toList_inj.1 (by simp [text,front,String.intercalate_cons_cons])
  refine RawText.ext_bytes ?_
  rw [htext,RawText.bytes_ofText_append,RawText.ofText_intercalate (List.cons_ne_nil _ _)]
  rfl

theorem isName_of_mem_place (h : RawText.IsName ref.space) : ∀ name ∈ ref.place, name.IsName := by
  have hblob : RawText.IsName "@blob" := ⟨by decide,by decide,by decide⟩
  have hid : RawText.IsName (toString ref.id ++ ".js" : String) := by
    have hlength : 3 ≤ (toString ref.id ++ ".js").toList.length := by simp
    refine ⟨?_,?_,?_⟩
    · intro heq
      rw [RawText.ofText_inj.1 heq] at hlength
      exact absurd hlength (by decide)
    · intro heq
      rw [RawText.ofText_inj.1 heq] at hlength
      exact absurd hlength (by decide)
    · rw [RawText.slash_mem_ofText_iff,String.toList_append,List.mem_append]
      rintro (hslash | hslash)
      · exact absurd (Text.isDigit_of_mem_toString hslash) (by decide)
      · exact absurd hslash (by decide)
  exact List.forall_mem_cons.2 ⟨hblob,List.forall_mem_cons.2 ⟨h,List.forall_mem_singleton.2 hid⟩⟩

/-- The code of a module is written where its address leads to. -/
theorem names_text (h : RawText.IsName ref.space) : RawText.names ref.text = ref.place := by
  rw [ofText_text]
  exact RawText.names_pathOf (List.cons_ne_nil _ _) (isName_of_mem_place h)

end Reference

namespace Redirects

/-- The only at sign of an address is its second character, and that of a package has its name before one. -/
theorem urlFor_ne_text {p : PackageSpec} {ref : Reference} (hname : p.name ≠ "") (hspace : '@' ∉ ref.space.toList)
    (redirects : Redirects) : redirects.urlFor p ≠ ref.text := by
  intro heq
  have hmark : '@' ∉ "blob/".toList ++ (ref.space.toList ++ '/' :: ((toString ref.id).toList ++ ".js".toList)) := by
    simp only [List.mem_append,List.mem_cons]
    rintro (h | h | h | h | h)
    · exact absurd h (by decide)
    · exact hspace h
    · exact absurd h (by decide)
    · exact absurd (Text.isDigit_of_mem_toString h) (by decide)
    · exact absurd h (by decide)
  have htext : (Text.dropEndSlashes redirects.cdn).toList ++ '/' :: (p.name.toList ++ '@' ::
      (redirects.versionFor p ++ p.subpathText ++ redirects.externalQuery p).toList) = '/' :: '@' ::
        ("blob/".toList ++ (ref.space.toList ++ '/' :: ((toString ref.id).toList ++ ".js".toList))) := by
    have h := congrArg String.toList heq
    rw [Reference.toList_text] at h
    simpa [urlFor,Reference.front] using h
  generalize "blob/".toList ++ _ = rest at hmark htext
  obtain ⟨c,name,hc⟩ := List.exists_cons_of_ne_nil fun hnil => hname (String.toList_eq_nil_iff.1 hnil)
  rw [hc] at htext
  cases hcdn : (Text.dropEndSlashes redirects.cdn).toList with
  | nil =>
    rw [hcdn] at htext
    simp only [List.nil_append,List.cons_append,List.cons.injEq,true_and] at htext
    exact hmark (htext.2 ▸ by simp)
  | cons c₁ cs =>
    rw [hcdn] at htext
    cases cs with
    | nil => simp at htext
    | cons c₂ cs =>
      simp only [List.cons_append,List.cons.injEq] at htext
      exact hmark (htext.2.2 ▸ by simp)

end Redirects

namespace Registry

variable {space path : String} {staged : StagedBuild} {c : CompiledModule} {fs : FileSet} {redirects : Redirects}
  {options : TransformOptions}

/-- A module of a registry that had none is the template of its file, with the addresses of modules that are
registered. -/
theorem exists_template_of_run (ho : OrderedMap.IsOrdered fs) (hstage : fs.stage redirects options = .ok staged)
    (hc : ((empty space).run [.commit staged]).module? path = some c) :
    ∃ content t, (path,content) ∈ fs.modules ∧ Template.compile fs redirects options path content = .ok t ∧
      c.code = substitute t.text (((empty space).run [.commit staged]).targets t.links.modules) ∧
      ∀ q ∈ t.links.modules, ∃ ref, ((empty space).run [.commit staged]).reference? q = some ref := by
  have hs : staged.IsStaged := ⟨fs,redirects,options,ho,hstage⟩
  have hall : ∀ call ∈ [RegistryCall.commit staged], call.IsStaged := List.forall_mem_singleton.2 hs
  obtain ⟨before,staged',after,m,own,hcalls,hm,rfl,rfl⟩ := registeredBy_of_run hall hc
  obtain ⟨rfl,rfl,rfl⟩ : before = [] ∧ staged = staged' ∧ after = [] := by
    cases before with
    | nil => simpa using hcalls
    | cons call before => simp at hcalls
  obtain ⟨⟨path,content⟩,hmem,hcompile,-⟩ := FileSet.exists_of_mem_stage hstage hm
  obtain rfl : m.path = path := (Template.of_compile hcompile).1
  exact ⟨content,m.template,hmem,hcompile,rfl,fun q hq => exists_reference_of_link (sound_empty space) hs hm hq⟩

end Registry

namespace PreviewSession

variable {s : PreviewSession} {document : PreviewDocument}

theorem exportedFiles_eq (h : s.document = some document) : s.exportedFiles =
    ⟨["index.html"],document.html⟩ :: s.registry.modules.map fun m => ⟨m.2.reference.place,m.2.code⟩ := by
  rw [exportedFiles,h]

theorem isPlain_of_mem_exportedFiles (h : s.document = some document)
    (hspace : ∀ m ∈ s.registry.modules, Disk.IsPlain m.2.reference.space) : ∀ f ∈ s.exportedFiles, f.IsPlain := by
  rw [exportedFiles_eq h]
  refine List.forall_mem_cons.2 ⟨⟨[],_,rfl,List.forall_mem_nil _⟩,List.forall_mem_map.2 fun m hm => ?_⟩
  refine ⟨["@blob",m.2.reference.space],_,rfl,List.forall_mem_cons.2 ⟨?_,List.forall_mem_singleton.2 (hspace m hm)⟩⟩
  exact ⟨by decide,by decide,by decide⟩

/-- Two modules have two references, and these are as long. -/
theorem pairwise_apart_exportedFiles (h : s.document = some document)
    (hnodup : (s.registry.modules.map (·.2.reference.text)).Nodup) :
    s.exportedFiles.Pairwise ExportedFile.Apart := by
  rw [exportedFiles_eq h]
  refine List.pairwise_cons.2 ⟨List.forall_mem_map.2 fun m _ => ?_,List.pairwise_map.2 ?_⟩
  · simp [ExportedFile.Apart,Reference.place,RawText.ofText_inj]
  · refine (List.pairwise_map.1 hnodup).imp fun {m m'} hne => ?_
    have hplace : m.2.reference.place ≠ m'.2.reference.place := by
      intro heq
      refine hne (RawText.ofText_inj.1 ?_)
      rw [Reference.ofText_text,Reference.ofText_text,heq]
    exact ⟨fun hle => hplace (hle.eq_of_length rfl),fun hle => hplace (hle.eq_of_length rfl).symm⟩

end PreviewSession

namespace Command

variable {p : OpenedProject} {fs : FileSet} {s : PreviewSession} {staged : StagedBuild} {document : PreviewDocument}
  {path out : RawText} {place : List RawText} {showsDocument showsImportMap : Bool} {d d' : Disk}
  {report : CheckReport}

/-- What a session shows once a project has been compiled. -/
structure IsShown (p : OpenedProject) (fs : FileSet) (s : PreviewSession) (staged : StagedBuild)
    (document : PreviewDocument) : Prop where
  ordered : OrderedMap.IsOrdered fs
  stage : fs.stage p.config.packages p.config.jsx = .ok staged
  registry : s.registry = (Registry.empty checkSpace).run [.commit staged]
  importMap : s.importMap = ImportMap.build s.registry p.config.packages
  document : s.document = some document

theorem exists_isShown (ho : OrderedMap.IsOrdered fs) (h : compileOnce p fs = (none,s)) :
    ∃ staged document, IsShown p fs s staged document := by
  let s₀ := (PreviewSession.empty (Pipeline.ofConfig p.config) checkSpace).request.2
  have hrecompile : (PreviewSession.empty (Pipeline.ofConfig p.config) checkSpace).recompile fs =
      s₀.apply 1 (s₀.pipeline.build fs) := PreviewSession.recompile_of_not_settled (by rfl)
  have hgate : s₀.gate.tryCommit 1 = some ⟨1,1⟩ := PreviewSession.tryCommit_eq_some Nat.zero_lt_one
  rw [compileOnce,hrecompile] at h
  cases hb : s₀.pipeline.build fs with
  | error e =>
    rw [hb,PreviewSession.apply_error hgate] at h
    cases h
  | ok b =>
    obtain ⟨hstage,-,hentry⟩ := Pipeline.of_build hb
    have hs := Pipeline.isStaged_of_build ho hb
    obtain ⟨document,hdocument⟩ := PreviewSession.exists_assemble (Registry.sound_empty checkSpace) hs hentry
      p.config.packages p.config.document 1
    have hnew : s₀.isCurrent b.fingerprint = false := rfl
    have hreplace := PreviewSession.replace_eq (s := { s₀ with gate := ⟨1,1⟩ }) hdocument
    rw [hb,PreviewSession.apply_of_not_isCurrent hgate hnew,hreplace] at h
    obtain ⟨-,rfl⟩ := Prod.mk.inj h
    exact ⟨b.staged,document,ho,hstage,rfl,rfl,rfl⟩

theorem IsShown.isStaged (h : IsShown p fs s staged document) : ∀ call ∈ [RegistryCall.commit staged], call.IsStaged :=
  List.forall_mem_singleton.2 ⟨fs,p.config.packages,p.config.jsx,h.ordered,h.stage⟩

theorem IsShown.sound (h : IsShown p fs s staged document) : s.registry.Sound :=
  h.registry ▸ (Registry.sound_empty checkSpace).run h.isStaged

theorem IsShown.module? {m : String × CompiledModule} (h : IsShown p fs s staged document)
    (hm : m ∈ s.registry.modules) : s.registry.module? m.1 = some m.2 :=
  (OrderedMap.find?_eq_some_iff h.sound.ordered).2 hm

theorem IsShown.space_eq {m : String × CompiledModule} (h : IsShown p fs s staged document)
    (hm : m ∈ s.registry.modules) : m.2.reference.space = checkSpace := by
  have href : s.registry.reference? m.1 = some m.2.reference :=
    congrArg (Option.map CompiledModule.reference) (h.module? hm)
  rw [h.sound.space_of_reference? href,h.registry,Registry.space_run]
  rfl

/-- The files of an export can be written one after the other. -/
theorem IsShown.isPlain_and_apart (h : IsShown p fs s staged document) :
    (∀ f ∈ s.exportedFiles, f.IsPlain) ∧ s.exportedFiles.Pairwise ExportedFile.Apart := by
  refine ⟨PreviewSession.isPlain_of_mem_exportedFiles h.document fun m hm => ?_,
    PreviewSession.pairwise_apart_exportedFiles h.document h.sound.nodup_references⟩
  rw [h.space_eq hm]
  exact ⟨by decide,by decide,by decide⟩

theorem IsShown.exportedFiles_ne_nil (h : IsShown p fs s staged document) : s.exportedFiles ≠ [] := by
  rw [PreviewSession.exportedFiles_eq h.document]
  exact List.cons_ne_nil _ _

/-- A check that exports without an error has compiled the project and written the files. -/
theorem exists_of_check (h : check path (some out) showsDocument showsImportMap d = (.ok report,d'))
    (hok : report.error = none) :
    ∃ p fs s, OpenedProject.at? path d = .ok p ∧ FileSet.ofDisk p.root d = .ok fs ∧ compileOnce p fs = (none,s) ∧
      writeExport out s.exportedFiles d = (.ok (),d') ∧
      report = .ofSession p.root.shown showsDocument showsImportMap none
        ["exported " ++ toString s.exportedFiles.length ++ " files to " ++ out.shown] s := by
  rw [check] at h
  split at h
  · cases h
  · rename_i p hopen
    split at h
    · cases h
    · rename_i fs hfs
      rcases hcompile : compileOnce p fs with ⟨error,s⟩
      simp only [hcompile] at h
      cases error with
      | some e =>
        cases h
        cases hok
      | none =>
        simp only at h
        split at h
        · cases h
        · rename_i hwrite
          cases h
          exact ⟨p,fs,s,hopen,hfs,hcompile,hwrite,rfl⟩

end Command

section

variable {es : List (RawText × DiskNode)} {name : RawText}

theorem Disk.follow_top (hname : IsPlain name) (hnone : OrderedMap.find? name es = none) :
    follow (.directory es) true linkLimit [name] [] = .ok [name] := by
  have hmissing : ({ top := .directory es } : Disk).shape? ([] ++ [name]) = none := by
    rw [shape?,List.nil_append,DiskNode.shape?_directory_cons,hnone]
    rfl
  exact follow_singleton hname rfl (.inl hmissing)

/-- A directory that is missing is made, and nothing is in it. -/
theorem Disk.createDirectories_top {path : RawText} (hname : IsPlain name) (hnames : path.names = [name])
    (habsolute : path.isAbsolute = true) (hnone : OrderedMap.find? name es = none) :
    ({ top := .directory es } : Disk).createDirectories path =
      (.ok [name],({ top := .directory es } : Disk).put [name] (some (.directory []))) := by
  have hmissing : (DiskNode.directory es).get? [name] = none := by simp [DiskNode.get?,DiskNode.child?,hnone]
  rw [createDirectories,habsolute,hnames,if_pos rfl,makeDirectories,follow_top hname hnone]
  simp only [hmissing,List.nil_append,if_true]
  rfl

/-- Without a file for them the settings are the default ones. -/
theorem Command.OpenedProject.at?_top (hnone : OrderedMap.find? (RawText.ofText ProjectConfig.fileName) es = none) :
    OpenedProject.at? "/" { top := .directory es } = .ok ⟨"/",{}⟩ := by
  have hcanonical : ({ top := .directory es } : Disk).canonicalize "/" = .ok "/" := by
    rw [Disk.canonicalize,Disk.find_top]
    rfl
  have hnames : (RawText.join "/" ProjectConfig.fileName).names = [RawText.ofText ProjectConfig.fileName] := by
    decide +kernel
  have hfile : ({ top := .directory es } : Disk).isFile (RawText.join "/" ProjectConfig.fileName) = false := by
    have hlocate : ({ top := .directory es } : Disk).locate (RawText.join "/" ProjectConfig.fileName) true =
        .ok [RawText.ofText ProjectConfig.fileName] := by
      rw [Disk.locate,hnames]
      exact Disk.follow_top ⟨by decide,by decide,by decide⟩ hnone
    have hmissing : (DiskNode.directory es).get? [RawText.ofText ProjectConfig.fileName] = none := by
      simp [DiskNode.get?,DiskNode.child?,hnone]
    simp only [Disk.isFile,Disk.find,hlocate,bind,Except.bind,hmissing]
    rfl
  rw [OpenedProject.at?,hcanonical]
  simp only [ProjectConfig.load,hfile]
  rfl

end

/-- Is a directory empty, or is it as soon as it has been made? -/
def Disk.IsFresh (path : RawText) (d : Disk) : Prop :=
  ∃ place made, d.createDirectories path = (.ok place,made) ∧ made.top.get? place = some (.directory [])

/-- Is a text in the file at a path below a place? -/
def Disk.HasText (place : List RawText) (path text : String) (d : Disk) : Prop :=
  d.top.get? (place ++ RawText.names path) = some (.file (textBytes text))

namespace Command

variable {p : OpenedProject} {fs : FileSet} {s : PreviewSession} {staged : StagedBuild} {document : PreviewDocument}
  {path out : RawText} {place : List RawText} {showsDocument showsImportMap : Bool} {d d' : Disk}
  {report : CheckReport}

/-- Is below a place what a session shows, and all that it refers to? -/
structure IsClosedExport (p : OpenedProject) (fs : FileSet) (s : PreviewSession) (place : List RawText) (d : Disk) :
    Prop where
  page : ∃ document, s.document = some document ∧ d.HasText place "index.html" document.html
  /-- What the import map leads to is a module, or it has the address of a package, which is no reference. -/
  imports : ∀ e ∈ s.importMap.imports,
    (∃ m ∈ s.registry.modules, e.2 = m.2.reference.text ∧ d.HasText place e.2 m.2.code) ∨
    (∃ q ∈ ImportMap.neededPackages s.registry, e = (q.bare,p.config.packages.urlFor q)) ∧
      ∀ ref : Reference, ref.space = checkSpace → e.2 ≠ ref.text
  modules : ∀ m ∈ s.registry.modules, d.HasText place m.2.reference.text m.2.code
  /-- The addresses in the code of a module are those of the modules that it imports. -/
  links : ∀ m ∈ s.registry.modules, ∃ content t, (m.1,content) ∈ fs.modules ∧
    Template.compile fs p.config.packages p.config.jsx m.1 content = .ok t ∧
    m.2.code = substitute t.text (s.registry.targets t.links.modules) ∧
    ∀ address ∈ s.registry.targets t.links.modules, ∃ m' ∈ s.registry.modules,
      m'.1 ∈ t.links.modules ∧ address = m'.2.reference.text ∧ d.HasText place address m'.2.code
  nodup_references : (s.registry.modules.map (·.2.reference.text)).Nodup
  files : ∀ q bytes, d.top.get? (place ++ q) = some (.file bytes) ↔
    ∃ f ∈ s.exportedFiles, f.place = q ∧ bytes = textBytes f.text
  nodup_places : (s.exportedFiles.map (·.place)).Nodup
  length : s.exportedFiles.length = s.registry.modules.length + 1

/-- In a directory that has the files of an export and no others, each address leads to the code of its module. -/
theorem IsShown.isClosedExport (h : IsShown p fs s staged document) (hholds : d.Holds place s.exportedFiles) :
    IsClosedExport p fs s place d := by
  have hfile (f : ExportedFile) (hf : f ∈ s.exportedFiles) :
      d.top.get? (place ++ f.place) = some (.file (textBytes f.text)) :=
    (hholds.get?_eq_file_iff f.place _).2 ⟨f,hf,rfl,rfl⟩
  rw [PreviewSession.exportedFiles_eq h.document] at hfile
  obtain ⟨hindex,hfile⟩ := List.forall_mem_cons.1 hfile
  have hname : RawText.IsName checkSpace := ⟨by decide,by decide,by decide⟩
  have hcode : ∀ m ∈ s.registry.modules, d.HasText place m.2.reference.text m.2.code := by
    intro m hm
    rw [Disk.HasText,Reference.names_text (h.space_eq hm ▸ hname)]
    exact hfile _ (List.mem_map_of_mem hm)
  refine ⟨⟨document,h.document,?_⟩,?_,hcode,?_,h.sound.nodup_references,hholds.get?_eq_file_iff,?_,
    PreviewSession.length_exportedFiles h.document⟩
  · have hnames : RawText.names "index.html" = [RawText.ofText "index.html"] := by decide +kernel
    rw [Disk.HasText,hnames]
    exact hindex
  · intro e he
    rw [h.importMap] at he
    rcases ImportMap.mem_build he with he | he
    · obtain ⟨m,hm,-,haddress⟩ := ImportMap.mem_ownEntries he
      exact .inl ⟨m,hm,haddress,haddress ▸ hcode m hm⟩
    · obtain ⟨q,hq,rfl⟩ := ImportMap.mem_packageEntries he
      refine .inr ⟨⟨q,hq,rfl⟩,fun ref href => Redirects.urlFor_ne_text ?_ (href ▸ by decide) _⟩
      obtain ⟨specifier,-,hparse⟩ := ImportMap.isNamed_of_mem_neededPackages h.isStaged (h.registry ▸ hq)
      exact fun hnil => (PackageSpec.name_of_parse? hparse).2.1 (String.toList_eq_nil_iff.2 hnil)
  · intro m hm
    have hmod := h.module? hm
    rw [h.registry] at hmod
    obtain ⟨content,t,hmem,ht,htext,hrefs⟩ := Registry.exists_template_of_run h.ordered h.stage hmod
    rw [← h.registry] at htext hrefs
    refine ⟨content,t,hmem,ht,htext,fun address haddress => ?_⟩
    obtain ⟨q,hq,rfl⟩ := List.mem_map.1 haddress
    obtain ⟨ref,href⟩ := hrefs q hq
    obtain ⟨c,hc,rfl⟩ := Option.map_eq_some_iff.1 href
    have hc : (q,c) ∈ s.registry.modules := OrderedMap.mem_of_find? hc
    rw [href]
    exact ⟨(q,c),hc,hq,rfl,hcode (q,c) hc⟩
  · refine List.pairwise_map.2 (h.isPlain_and_apart.2.imp fun {f g} hfg heq => hfg.1 ?_)
    rw [heq]

/-- A check that exports into a fresh directory without an error leaves a closed export there. -/
theorem check_exports_closed (h : check path (some out) showsDocument showsImportMap d = (.ok report,d'))
    (hok : report.error = none) (hfresh : d.IsFresh out) :
    ∃ p fs s place, OpenedProject.at? path d = .ok p ∧ FileSet.ofDisk p.root d = .ok fs ∧
      compileOnce p fs = (none,s) ∧ (d.createDirectories out).1 = .ok place ∧ IsClosedExport p fs s place d' ∧
      report = .ofSession p.root.shown showsDocument showsImportMap none
        ["exported " ++ toString (s.registry.modules.length + 1) ++ " files to " ++ out.shown] s := by
  obtain ⟨p,fs,s,hopen,hfs,hcompile,hwrite,hreport⟩ := exists_of_check h hok
  obtain ⟨place,made,hmade,hempty⟩ := hfresh
  obtain ⟨staged,document,hshown⟩ := exists_isShown (FileSet.isOrdered_ofDisk hfs) hcompile
  obtain ⟨hplain,hapart⟩ := hshown.isPlain_and_apart
  have hholds := holds_of_writeExport hshown.exportedFiles_ne_nil hplain hapart hmade hempty hwrite
  rw [PreviewSession.length_exportedFiles hshown.document] at hreport
  exact ⟨p,fs,s,place,hopen,hfs,hcompile,congrArg Prod.fst hmade,hshown.isClosedExport hholds,hreport⟩

/-- A script with one import, exported to a directory that is made. -/
theorem check_exports_closed_of_import :
    let d : Disk := { top := .directory [("App.js",.file (textBytes "import './b.js';")),("b.js",.file [])] }
    ∃ report d', check "/" (some "/out") false false d = (.ok report,d') ∧ report.error = none ∧ d.IsFresh "/out" ∧
      d'.HasText ["out"] "/@blob/check/1.js" "import \"/@blob/check/2.js\";\n" ∧
      d'.HasText ["out"] "/@blob/check/2.js" "" := by
  intro d
  have hopen : OpenedProject.at? "/" d = .ok ⟨"/",{}⟩ := OpenedProject.at?_top rfl
  let fs := FileSet.ofWalk (Disk.walkBelow d.top)
  have hfs : FileSet.ofDisk "/" d = .ok fs := FileSet.ofDisk_top _
  have hrun : (compileOnce ⟨"/",{}⟩ fs).1 = none ∧
      (compileOnce ⟨"/",{}⟩ fs).2.exportedFiles.map (·.place) =
        ([["index.html"],["@blob","check","1.js"],["@blob","check","2.js"]] : List (List RawText)) ∧
      (compileOnce ⟨"/",{}⟩ fs).2.registry.modules.map (fun m => (m.2.reference.text,m.2.code)) =
        [("/@blob/check/1.js","import \"/@blob/check/2.js\";\n"),("/@blob/check/2.js","")] := by
    decide +kernel
  have hmade : d.createDirectories "/out" = (.ok ["out"],d.put ["out"] (some (.directory []))) :=
    Disk.createDirectories_top ⟨by decide,by decide,by decide⟩ (by decide +kernel) (by decide) rfl
  have hempty : (d.put ["out"] (some (.directory []))).top.get? ["out"] = some (.directory []) :=
    DiskNode.get?_set_self _ _ _
  clear_value fs d
  rcases hcompile : compileOnce ⟨"/",{}⟩ fs with ⟨error,s⟩
  rw [hcompile] at hrun
  obtain ⟨rfl,hplaces,hmodules⟩ := hrun
  obtain ⟨staged,document,hshown⟩ := exists_isShown (FileSet.isOrdered_ofDisk hfs) hcompile
  obtain ⟨hplain,hapart⟩ := hshown.isPlain_and_apart
  have hshort : ∀ f ∈ s.exportedFiles, f.IsShort := by
    have hlengths : ∀ place ∈ s.exportedFiles.map (·.place),
        (place.getLastD "").bytes.length + Disk.temporaryExtra ≤ Disk.nameLimit := by
      rw [hplaces]
      decide
    exact fun f hf => hlengths f.place (List.mem_map_of_mem hf)
  obtain ⟨d',hwrite,-⟩ := exists_writeExport hshown.exportedFiles_ne_nil hplain hapart hmade hempty hshort
  have hcheck : ∃ report, check "/" (some "/out") false false d = (.ok report,d') ∧ report.error = none := by
    simp only [check,hopen,hfs,hcompile,hwrite]
    exact ⟨_,rfl,rfl⟩
  obtain ⟨report,hcheck,hok⟩ := hcheck
  have hfresh : d.IsFresh "/out" := ⟨_,_,hmade,hempty⟩
  obtain ⟨p',fs',s',place,hopen',hfs',hcompile',hplace,hclosed,-⟩ := check_exports_closed hcheck hok hfresh
  obtain rfl := Except.ok.inj (hopen.symm.trans hopen')
  obtain rfl := Except.ok.inj (hfs.symm.trans hfs')
  obtain ⟨-,rfl⟩ := Prod.mk.inj (hcompile.symm.trans hcompile')
  rw [hmade] at hplace
  obtain rfl := Except.ok.inj hplace
  have hcode : ∀ e ∈ s.registry.modules.map (fun m => (m.2.reference.text,m.2.code)), d'.HasText ["out"] e.1 e.2 :=
    List.forall_mem_map.2 hclosed.modules
  rw [hmodules] at hcode
  obtain ⟨hentry,himport⟩ := List.forall_mem_cons.1 hcode
  have himport := List.forall_mem_singleton.1 himport
  exact ⟨report,d',hcheck,hok,hfresh,hentry,himport⟩

end Command

end PreviewCompiler
