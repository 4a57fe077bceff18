import Mathlib.Data.String.Basic
import PreviewCompiler.Preview.Session
import PreviewCompiler.Proofs.Compile.SameFiles
import PreviewCompiler.Proofs.Files.Snapshot

namespace PreviewCompiler

open Data Script

/-- A linking step that fails only with errors about a file. -/
def Linking.FailsAt (importer : String) (α : Type) (x : Linking α) : Prop :=
  ∀ links e, x links = .error e → e.path? = some importer

theorem Linking.composes_failsAt (importer : String) : Composes (m := Linking) (FailsAt importer) where
  pure a links e h := by contradiction
  bind {α β x f} hx hf links e h := by
    rcases bind_eq_error (x := x links) (f := fun al => f al.1 al.2) h with hfirst | ⟨al,-,hrest⟩
    · exact hx links e hfirst
    · exact hf al.1 al.2 e hrest

namespace Surroundings

variable {s : Surroundings} {n : Node} {e : CompileError}

theorem failsAt_link (s : Surroundings) (specifier : String) :
    Linking.FailsAt s.importer (Option String) (s.link specifier) := by
  intro links e h
  unfold link at h
  split at h
  · contradiction
  · cases hr : Resolution.resolve s.files specifier s.importer with
    | file path =>
      simp only [hr] at h
      by_cases hm : Path.isModule path = true
      · rw [if_pos hm] at h
        contradiction
      · rw [if_neg hm] at h
        obtain rfl := Except.error.inj h
        rfl
    | package q =>
      simp only [hr] at h
      contradiction
    | nothing =>
      simp only [hr] at h
      obtain rfl := Except.error.inj h
      rfl

theorem path?_of_isStyleImport (h : s.isStyleImport n = .error e) : e.path? = some s.importer := by
  unfold isStyleImport at h
  split at h
  · split at h
    · split at h
      · split at h
        · obtain rfl := Except.error.inj h
          rfl
        · contradiction
      · contradiction
    · contradiction
  · contradiction

theorem path?_of_dropStyleImports {items : List Node} (h : s.dropStyleImports items = .error e) :
    e.path? = some s.importer := by
  induction items with
  | nil => contradiction
  | cons n items ih =>
    rcases bind_eq_error h with hn | ⟨isStyle,-,hrest⟩
    · exact path?_of_isStyleImport hn
    · rcases bind_eq_error hrest with hitems | ⟨rest,-,hret⟩
      · exact ih hitems
      · contradiction

theorem path?_of_linkProgram {p : Program} (h : s.linkProgram p = .error e) : e.path? = some s.importer := by
  have hc := Linking.composes_failsAt s.importer
  have hdrop : Linking.FailsAt s.importer (List Node) (liftM (s.dropStyleImports p.module.body)) := by
    intro links e h
    rcases bind_eq_error h with hitems | ⟨rest,-,hret⟩
    · exact path?_of_dropStyleImports hitems
    · contradiction
  have hitems : Linking.FailsAt s.importer (List Node) (s.linkItems p.module.body) :=
    hc.bind hdrop fun kept => hc.mapM (fun n => hc.mapSpecifiers (failsAt_link s) n) kept
  rcases bind_eq_error h with hbody | ⟨body,-,hret⟩
  · exact hitems {} e hbody
  · contradiction

end Surroundings

namespace Template

variable {fs : FileSet} {redirects : Redirects} {options : TransformOptions} {path content : String} {e : CompileError}

theorem path?_of_ofScript {s : Surroundings} {dialect : Dialect} (h : ofScript s dialect options content = .error e) :
    e.path? = some s.importer := by
  simp only [ofScript] at h
  split at h
  · contradiction
  · split at h
    · obtain rfl := Except.error.inj h
      rfl
    · rcases bind_eq_error h with hlink | ⟨linked,-,hret⟩
      · exact Surroundings.path?_of_linkProgram hlink
      · contradiction

theorem path?_of_ofJson (h : ofJson path content = .error e) : e.path? = some path := by
  unfold ofJson at h
  split at h
  · contradiction
  · obtain rfl := Except.error.inj h
    rfl

/-- A file that cannot be compiled is the one that the error is about. -/
theorem path?_of_compile (h : compile fs redirects options path content = .error e) : e.path? = some path := by
  unfold compile at h
  split at h
  · rcases bind_eq_error h with hscript | ⟨r,-,hret⟩
    · exact path?_of_ofScript hscript
    · contradiction
  · rcases bind_eq_error h with hjson | ⟨r,-,hret⟩
    · exact path?_of_ofJson (map_eq_error_iff.1 hjson)
    · contradiction
  · obtain rfl := Except.error.inj h
    rfl
  · obtain rfl := Except.error.inj h
    rfl

end Template

/-- Is `path` the least path of the files at which an attempt fails, and `e` the error there? -/
def IsLeastFailure {α : Type} (attempt : String × String → Except CompileError α) (files : List (String × String))
    (path : String) (e : CompileError) : Prop :=
  ∃ content, (path,content) ∈ files ∧ attempt (path,content) = .error e ∧
    ∀ f ∈ files, (attempt f).isOk = false → path ≤ f.1

section

variable {α : Type} {attempt : String × String → Except CompileError α} {files : List (String × String)}
  {e : CompileError}

/-- In the order of the paths the first failure is the least one. -/
theorem mapM_eq_error_iff_isLeastFailure (ho : files.Pairwise fun f g => f.1 < g.1) :
    files.mapM attempt = .error e ↔ ∃ path, IsLeastFailure attempt files path e := by
  rw [mapM_eq_error_iff]
  constructor
  · rintro ⟨front,⟨path,content⟩,back,rfl,hfront,hfails⟩
    refine ⟨path,content,by simp,hfails,?_⟩
    intro g hg hbad
    obtain ⟨-,hback,-⟩ := List.pairwise_append.1 ho
    rcases List.mem_append.1 hg with hg | hg
    · have hok := hfront g hg
      rw [hbad] at hok
      contradiction
    · rcases List.mem_cons.1 hg with rfl | hg
      · exact le_refl _
      · exact ((List.pairwise_cons.1 hback).1 g hg).le
  · rintro ⟨path,content,hmem,hfails,hleast⟩
    obtain ⟨front,back,rfl⟩ := List.append_of_mem hmem
    refine ⟨front,(path,content),back,rfl,?_,hfails⟩
    intro g hg
    have hlt : g.1 < path := (List.pairwise_append.1 ho).2.2 g hg (path,content) List.mem_cons_self
    by_contra hbad
    have hle : path ≤ g.1 := hleast g (by simp [hg]) (Bool.eq_false_iff.2 hbad)
    exact absurd hlt (not_lt_of_ge hle)

/-- It does not matter what is made of a success. -/
theorem isLeastFailure_map {β : Type} (g : α → β) {path : String} :
    IsLeastFailure (fun f => g <$> attempt f) files path e ↔ IsLeastFailure attempt files path e := by
  simp only [IsLeastFailure,map_eq_error_iff,isOk_map]

end

namespace Pipeline

variable {p : Pipeline} {fs : FileSet} {e : CompileError} {path : String}

/-- A file of a snapshot as a module. -/
def compileFile (p : Pipeline) (fs : FileSet) (f : String × String) : Except CompileError Template :=
  Template.compile fs p.redirects p.transform f.1 f.2

/-- A stylesheet after processing; nothing can be wrong with one that is left as it is. -/
def processSheet (p : Pipeline) (f : String × String) : Except CompileError String :=
  if p.styles.isPlain then .ok f.2 else FileSet.styleText p.styles f

theorem path?_of_processSheet {f : String × String} (h : p.processSheet f = .error e) : e.path? = some f.1 := by
  unfold processSheet at h
  split at h
  · contradiction
  · unfold FileSet.styleText at h
    split at h
    · contradiction
    · obtain rfl := Except.error.inj h
      rfl

theorem styles_eq (p : Pipeline) (fs : FileSet) :
    fs.styles p.styles = "\n".intercalate <$> fs.stylesheets.mapM p.processSheet := by
  unfold FileSet.styles
  by_cases hplain : p.styles.isPlain = true
  · have hsheets : p.processSheet = fun f => pure f.2 := by
      funext f
      rw [processSheet,if_pos hplain]
      rfl
    rw [if_pos hplain,hsheets,List.mapM_pure]
    rfl
  · have hsheets : p.processSheet = FileSet.styleText p.styles := by
      funext f
      rw [processSheet,if_neg hplain]
    rw [if_neg hplain,hsheets]

theorem stage_eq (p : Pipeline) (fs : FileSet) : fs.stage p.redirects p.transform =
    fs.modules.mapM fun f => StagedModule.ofTemplate <$> p.compileFile fs f := rfl

theorem isOk_stage_iff : (fs.stage p.redirects p.transform).isOk = true ↔
    ∀ f ∈ fs.modules, (p.compileFile fs f).isOk = true := by
  simp only [stage_eq,isOk_mapM_iff,isOk_map]

theorem isOk_styles_iff : (fs.styles p.styles).isOk = true ↔
    ∀ f ∈ fs.stylesheets, (p.processSheet f).isOk = true := by
  simp only [styles_eq,isOk_map,isOk_mapM_iff]

theorem forall_modules_isOk_iff : (∀ f ∈ fs.modules, (p.compileFile fs f).isOk = true) ↔
    ∃ staged, fs.stage p.redirects p.transform = .ok staged := by
  rw [← isOk_stage_iff]
  exact isOk_iff_exists

theorem forall_stylesheets_isOk_iff : (∀ f ∈ fs.stylesheets, (p.processSheet f).isOk = true) ↔
    ∃ styles, fs.styles p.styles = .ok styles := by
  rw [← isOk_styles_iff]
  exact isOk_iff_exists

theorem stage_eq_error_iff (ho : OrderedMap.IsOrdered fs) : fs.stage p.redirects p.transform = .error e ↔
    ∃ path, IsLeastFailure (p.compileFile fs) fs.modules path e := by
  have hmodules : fs.modules.Pairwise fun f g => f.1 < g.1 := (FileSet.isOrdered_files ho).filter _
  rw [stage_eq,mapM_eq_error_iff_isLeastFailure hmodules]
  simp only [isLeastFailure_map]

theorem styles_eq_error_iff (ho : OrderedMap.IsOrdered fs) : fs.styles p.styles = .error e ↔
    ∃ path, IsLeastFailure p.processSheet fs.stylesheets path e := by
  have hsheets : fs.stylesheets.Pairwise fun f g => f.1 < g.1 := (FileSet.isOrdered_files ho).filter _
  rw [styles_eq,map_eq_error_iff,mapM_eq_error_iff_isLeastFailure hsheets]

theorem path?_of_isLeastFailure_compileFile (h : IsLeastFailure (p.compileFile fs) fs.modules path e) :
    e.path? = some path := by
  obtain ⟨content,-,hfails,-⟩ := h
  exact Template.path?_of_compile hfails

theorem path?_of_isLeastFailure_processSheet (h : IsLeastFailure p.processSheet fs.stylesheets path e) :
    e.path? = some path := by
  obtain ⟨content,-,hfails,-⟩ := h
  exact path?_of_processSheet hfails

/-- A build whose parts succeed depends on its entry. -/
theorem build_of_parts {staged : StagedBuild} {styles : String} (hstage : fs.stage p.redirects p.transform = .ok staged)
    (hstyles : fs.styles p.styles = .ok styles) : p.build fs =
      match p.entries.find? staged.paths.contains with
      | some entry => .ok { fingerprint := fs.fingerprint, staged, styles, entry }
      | none => .error (.entryMissing p.entries) := by
  simp only [build,hstage,hstyles]
  rfl

/-- A build fails with the first of its parts that does. -/
theorem build_eq_error_iff : p.build fs = .error e ↔
    fs.stage p.redirects p.transform = .error e ∨
    (∃ staged, fs.stage p.redirects p.transform = .ok staged ∧ fs.styles p.styles = .error e) ∨
    ∃ staged styles, fs.stage p.redirects p.transform = .ok staged ∧ fs.styles p.styles = .ok styles ∧
      e = .entryMissing p.entries ∧ ∀ c ∈ p.entries, c ∉ staged.paths := by
  cases hstage : fs.stage p.redirects p.transform with
  | error e' => simp [build,hstage,bind,Except.bind]
  | ok staged =>
    cases hstyles : fs.styles p.styles with
    | error e' => simp [build,hstage,hstyles,bind,Except.bind]
    | ok styles =>
      have hnone : p.entries.find? staged.paths.contains = none ↔ ∀ c ∈ p.entries, c ∉ staged.paths := by simp
      rw [build_of_parts hstage hstyles]
      cases hentry : p.entries.find? staged.paths.contains with
      | none => simpa [eq_comm (a := e)] using fun _ => hnone.1 hentry
      | some entry =>
        have hsome : ¬ ∀ c ∈ p.entries, c ∉ staged.paths := by
          rw [← hnone,hentry]
          exact Option.some_ne_none entry
        simp [hsome]

theorem exists_build_iff {entry : String} : (∃ b, p.build fs = .ok b ∧ b.entry = entry) ↔
    ∃ staged styles, fs.stage p.redirects p.transform = .ok staged ∧ fs.styles p.styles = .ok styles ∧
      p.entries.find? staged.paths.contains = some entry := by
  cases hstage : fs.stage p.redirects p.transform with
  | error e => simp [build,hstage,bind,Except.bind]
  | ok staged =>
    cases hstyles : fs.styles p.styles with
    | error e => simp [build,hstage,hstyles,bind,Except.bind]
    | ok styles =>
      have hparts : (∃ staged' styles', (.ok staged : Except CompileError StagedBuild) = .ok staged' ∧
          (.ok styles : Except CompileError String) = .ok styles' ∧
          p.entries.find? staged'.paths.contains = some entry) ↔
          p.entries.find? staged.paths.contains = some entry := by
        constructor
        · rintro ⟨staged',styles',hs,-,hentry⟩
          rwa [Except.ok.inj hs]
        · exact fun hentry => ⟨staged,styles,rfl,rfl,hentry⟩
      rw [hparts,build_of_parts hstage hstyles]
      cases p.entries.find? staged.paths.contains <;> simp

theorem build_eq_error_of_path_iff (ho : OrderedMap.IsOrdered fs) : p.build fs = .error e ∧ e.path? = some path ↔
    IsLeastFailure (p.compileFile fs) fs.modules path e ∨
    (∀ f ∈ fs.modules, (p.compileFile fs f).isOk = true) ∧ IsLeastFailure p.processSheet fs.stylesheets path e := by
  rw [build_eq_error_iff,stage_eq_error_iff ho,styles_eq_error_iff ho,forall_modules_isOk_iff]
  constructor
  · rintro ⟨⟨path',h⟩ | ⟨staged,hstaged,path',h⟩ | ⟨staged,styles,-,-,rfl,-⟩,hpath⟩
    · obtain rfl := Option.some.inj ((path?_of_isLeastFailure_compileFile h).symm.trans hpath)
      exact .inl h
    · obtain rfl := Option.some.inj ((path?_of_isLeastFailure_processSheet h).symm.trans hpath)
      exact .inr ⟨⟨staged,hstaged⟩,h⟩
    · contradiction
  · rintro (h | ⟨⟨staged,hstaged⟩,h⟩)
    · exact ⟨.inl ⟨path,h⟩,path?_of_isLeastFailure_compileFile h⟩
    · exact ⟨.inr (.inl ⟨staged,hstaged,path,h⟩),path?_of_isLeastFailure_processSheet h⟩

theorem build_eq_error_of_no_path_iff (ho : OrderedMap.IsOrdered fs) : p.build fs = .error e ∧ e.path? = none ↔
    (∀ f ∈ fs.modules, (p.compileFile fs f).isOk = true) ∧
    (∀ f ∈ fs.stylesheets, (p.processSheet f).isOk = true) ∧ e = .entryMissing p.entries ∧
    ∃ staged, fs.stage p.redirects p.transform = .ok staged ∧ ∀ c ∈ p.entries, c ∉ staged.paths := by
  rw [build_eq_error_iff,stage_eq_error_iff ho,styles_eq_error_iff ho,forall_modules_isOk_iff,
    forall_stylesheets_isOk_iff]
  constructor
  · rintro ⟨⟨path,h⟩ | ⟨staged,-,path,h⟩ | ⟨staged,styles,hstaged,hstyles,he,hnone⟩,hpath⟩
    · exact absurd ((path?_of_isLeastFailure_compileFile h).symm.trans hpath) (Option.some_ne_none _)
    · exact absurd ((path?_of_isLeastFailure_processSheet h).symm.trans hpath) (Option.some_ne_none _)
    · exact ⟨⟨staged,hstaged⟩,⟨styles,hstyles⟩,he,staged,hstaged,hnone⟩
  · rintro ⟨-,⟨styles,hstyles⟩,rfl,staged,hstaged,hnone⟩
    exact ⟨.inr (.inr ⟨staged,styles,hstaged,hstyles,rfl,hnone⟩),rfl⟩

theorem find?_contains_eq_some_iff {entries paths : List String} {entry : String} :
    entries.find? paths.contains = some entry ↔
      ∃ before after, entries = before ++ entry :: after ∧ entry ∈ paths ∧ ∀ c ∈ before, c ∉ paths := by
  rw [List.find?_eq_some_iff_append]
  constructor
  · rintro ⟨hin,before,after,hentries,hbefore⟩
    refine ⟨before,after,hentries,List.contains_iff_mem.1 hin,?_⟩
    intro c hc
    simpa using hbefore c hc
  · rintro ⟨before,after,hentries,hin,hbefore⟩
    refine ⟨List.contains_iff_mem.2 hin,before,after,hentries,?_⟩
    intro c hc
    simpa using hbefore c hc

/-- A build that fails at a file fails at the least module file that cannot be compiled or, if all can, at the least
stylesheet that cannot be processed, with the error of that file.  It fails without a file exactly if all are compiled
and processed and no entry that is asked for is staged; else it has the first one that is. -/
theorem outcome_of_build (p : Pipeline) {fs : FileSet} (ho : OrderedMap.IsOrdered fs) :
    let compiles := ∀ f ∈ fs.modules, (p.compileFile fs f).isOk = true
    let processes := ∀ f ∈ fs.stylesheets, (p.processSheet f).isOk = true
    let stages := fun staged : StagedBuild => fs.stage p.redirects p.transform = .ok staged
    (compiles ↔ ∃ staged, stages staged) ∧
    (∀ path e, p.build fs = .error e ∧ e.path? = some path ↔
      IsLeastFailure (p.compileFile fs) fs.modules path e ∨
      compiles ∧ IsLeastFailure p.processSheet fs.stylesheets path e) ∧
    (∀ e, p.build fs = .error e ∧ e.path? = none ↔
      compiles ∧ processes ∧ e = .entryMissing p.entries ∧
      ∃ staged, stages staged ∧ ∀ c ∈ p.entries, c ∉ staged.paths) ∧
    ∀ entry, (∃ b, p.build fs = .ok b ∧ b.entry = entry) ↔
      compiles ∧ processes ∧ ∃ staged before after, stages staged ∧ p.entries = before ++ entry :: after ∧
        entry ∈ staged.paths ∧ ∀ c ∈ before, c ∉ staged.paths := by
  refine ⟨forall_modules_isOk_iff,fun path e => build_eq_error_of_path_iff ho,
    fun e => build_eq_error_of_no_path_iff ho,fun entry => ?_⟩
  rw [exists_build_iff]
  simp only [find?_contains_eq_some_iff]
  constructor
  · rintro ⟨staged,styles,hstaged,hstyles,before,after,hentry⟩
    exact ⟨forall_modules_isOk_iff.2 ⟨staged,hstaged⟩,forall_stylesheets_isOk_iff.2 ⟨styles,hstyles⟩,
      staged,before,after,hstaged,hentry⟩
  · rintro ⟨-,hsheets,staged,before,after,hstaged,hentry⟩
    obtain ⟨styles,hstyles⟩ := forall_stylesheets_isOk_iff.1 hsheets
    exact ⟨staged,styles,hstaged,hstyles,before,after,hentry⟩

/-- Of an import of nothing, a broken value and a broken stylesheet, whose path is the least, the import is told of. -/
theorem outcome_of_build_of_broken_files :
    let p : Pipeline := { styles := { minify := true } }
    let fs : FileSet := [("/a.css",.file "..a{}"),("/b.js",.file "import './nope';"),("/c.json",.file "?")]
    let e := CompileError.resolution "./nope" "/b.js"
    OrderedMap.IsOrdered fs ∧ (p.processSheet ("/a.css","..a{}")).isOk = false ∧
    (p.compileFile fs ("/c.json","?")).isOk = false ∧ p.build fs = .error e ∧
    IsLeastFailure (p.compileFile fs) fs.modules "/b.js" e := by
  intro p fs e
  have ho : OrderedMap.IsOrdered fs := by decide +kernel
  have hbuild : p.build fs = .error e := by decide +kernel
  have hfails : (p.compileFile fs ("/c.json","?")).isOk = false := by decide +kernel
  have hmem : ("/c.json","?") ∈ fs.modules := by decide +kernel
  obtain ⟨-,hblame,-⟩ := outcome_of_build p ho
  refine ⟨ho,by decide +kernel,hfails,hbuild,?_⟩
  rcases (hblame "/b.js" e).1 ⟨hbuild,rfl⟩ with hmodule | ⟨hall,-⟩
  · exact hmodule
  · exact absurd (hall _ hmem) (ne_true_of_eq_false hfails)

end Pipeline

end PreviewCompiler
