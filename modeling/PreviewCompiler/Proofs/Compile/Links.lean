import PreviewCompiler.Compile.Stage
import PreviewCompiler.Proofs.Data.Except
import PreviewCompiler.Proofs.Registry.Changes
import PreviewCompiler.Proofs.Script.Traversal

namespace PreviewCompiler

open Data Script

/-- Is a path that of a module of a snapshot? -/
def FileSet.IsModuleFile (fs : FileSet) (path : String) : Prop :=
  FileSet.isFile path fs = true ∧ Path.isModule path = true

namespace Linking

/-- A linking step that keeps `I` true of the links. -/
def Keeps (I : Links → Prop) (α : Type) (x : Linking α) : Prop :=
  ∀ links, I links → ∀ a links', x links = .ok (a,links') → I links'

variable {I : Links → Prop}

theorem keeps_pure {α : Type} (a : α) : Keeps I α (pure a) := by
  intro links hI a' links' h
  obtain ⟨-,rfl⟩ := Prod.mk.inj (Except.ok.inj h)
  exact hI

theorem keeps_bind {α β : Type} {x : Linking α} {f : α → Linking β} (hx : Keeps I α x)
    (hf : ∀ a, Keeps I β (f a)) : Keeps I β (x >>= f) := by
  intro links hI b links' h
  cases hxl : x links with
  | error e =>
    have : (x >>= f) links = .error e := by simp [bind,StateT.bind,hxl,Except.bind]
    rw [this] at h
    contradiction
  | ok al =>
    have : (x >>= f) links = f al.1 al.2 := by simp [bind,StateT.bind,hxl,Except.bind]
    rw [this] at h
    exact hf al.1 al.2 (hx links hI al.1 al.2 hxl) b links' h

theorem composes_keeps (I : Links → Prop) : Composes (m := Linking) (Keeps I) := ⟨keeps_pure,keeps_bind⟩

theorem keeps_throw {α : Type} (e : CompileError) : Keeps I α (throw e) := by
  intro links _ a links' h
  contradiction

theorem keeps_throw_bind {α β : Type} (e : CompileError) (f : α → Linking β) :
    Keeps I β (throw e >>= f) := by
  intro links _ b links' h
  contradiction

theorem keeps_lift {α : Type} (x : Except CompileError α) : Keeps I α (liftM x) := by
  cases x with
  | error e => exact keeps_throw e
  | ok a => exact keeps_pure a

theorem keeps_modify {f : Links → Links} (hf : ∀ links, I links → I (f links)) :
    Keeps I PUnit (modify f) := by
  intro links hI _ links' h
  obtain ⟨-,rfl⟩ := Prod.mk.inj (Except.ok.inj h)
  exact hf links hI

theorem keeps_modifyGet {α : Type} {f : Links → α × Links} (hf : ∀ links, I links → I (f links).2) :
    Keeps I α (modifyGet f) := by
  intro links hI a links' h
  obtain ⟨-,rfl⟩ := Prod.mk.inj (Except.ok.inj h)
  exact hf links hI

end Linking

theorem Resolution.isFile_of_resolve {fs : FileSet} {specifier importer path : String}
    (h : resolve fs specifier importer = .file path) : FileSet.isFile path fs = true := by
  unfold resolve at h
  split at h
  · split at h
    · rename_i hp
      obtain rfl := Resolution.file.inj h
      exact (List.find?_some hp :)
    · contradiction
  · split at h <;> contradiction

theorem Links.mem_modules_indexOf {path d : String} {links : Links}
    (h : d ∈ (links.indexOf path).2.modules) : d = path ∨ d ∈ links.modules := by
  unfold indexOf at h
  split at h
  · exact .inr h
  · exact (List.mem_append.1 h).symm.imp_left List.mem_singleton.1

namespace Surroundings

variable {s : Surroundings}

/-- Are all modules that are linked to modules of the snapshot? -/
def IsClosed (s : Surroundings) (links : Links) : Prop := ∀ d ∈ links.modules, s.files.IsModuleFile d

theorem keeps_link (s : Surroundings) (specifier : String) :
    Linking.Keeps s.IsClosed (Option String) (s.link specifier) := by
  have hc := Linking.composes_keeps s.IsClosed
  unfold link
  split
  · exact hc.pure _
  · split
    · rename_i path hr
      by_cases hm : Path.isModule path = true
      · rw [if_pos hm]
        refine hc.bind (Linking.keeps_modifyGet fun links hI d hd => ?_) fun i => hc.pure _
        rcases Links.mem_modules_indexOf hd with rfl | hd
        · exact ⟨Resolution.isFile_of_resolve hr,hm⟩
        · exact hI d hd
      · rw [if_neg hm]
        exact Linking.keeps_throw_bind _ _
    · exact hc.bind (Linking.keeps_modify fun links hI => hI) fun _ => hc.pure _
    · exact Linking.keeps_throw _

/-- Linking keeps what the linking of each specifier keeps. -/
theorem keeps_linkItems {I : Links → Prop} (hI : ∀ specifier, Linking.Keeps I (Option String) (s.link specifier))
    (items : List Node) : Linking.Keeps I (List Node) (s.linkItems items) := by
  have hc := Linking.composes_keeps I
  unfold linkItems
  exact hc.bind (Linking.keeps_lift _) fun kept =>
    hc.mapM (fun n => hc.mapSpecifiers hI n) kept

theorem links_of_linkProgram {I : Links → Prop}
    (hI : ∀ specifier, Linking.Keeps I (Option String) (s.link specifier)) (hnone : I {}) {p p' : Program}
    {links : Links} (h : s.linkProgram p = .ok (p',links)) : I links := by
  obtain ⟨⟨body,links'⟩,hbody,hret⟩ := bind_eq_ok h
  obtain ⟨-,rfl⟩ := Prod.mk.inj (Except.ok.inj hret)
  exact keeps_linkItems hI _ {} hnone body links' hbody

end Surroundings

namespace Template

variable {fs : FileSet} {redirects : Redirects} {options : TransformOptions} {path content : String}
  {t : Template} {I : Links → Prop}

theorem links_of_ofScript {s : Surroundings} {dialect : Dialect} {text : String} {links : Links}
    (hI : ∀ specifier, Linking.Keeps I (Option String) (s.link specifier)) (hnone : I {})
    (h : ofScript s dialect options content = .ok (text,links)) : I links := by
  simp only [ofScript] at h
  split at h
  · obtain ⟨-,rfl⟩ := Prod.mk.inj (Except.ok.inj h)
    exact hnone
  · split at h
    · contradiction
    · obtain ⟨⟨p,links'⟩,hp,hret⟩ := bind_eq_ok h
      obtain ⟨-,rfl⟩ := Prod.mk.inj (Except.ok.inj hret)
      exact Surroundings.links_of_linkProgram hI hnone hp

/-- A template is of its own path, with the hash of its content, and what every specifier keeps true of the links is
true of its links. -/
theorem of_compile_of_keeps
    (hI : ∀ specifier, Linking.Keeps I (Option String) (Surroundings.link ⟨path,fs,redirects⟩ specifier))
    (hnone : I {}) (h : compile fs redirects options path content = .ok t) :
    t.path = path ∧ t.sourceHash = textHash content ∧ I t.links := by
  unfold compile at h
  split at h
  · obtain ⟨⟨text,links⟩,htext,hret⟩ := bind_eq_ok h
    obtain rfl := Except.ok.inj hret
    exact ⟨rfl,rfl,links_of_ofScript hI hnone htext⟩
  · obtain ⟨⟨text,links⟩,htext,hret⟩ := bind_eq_ok h
    obtain ⟨text',-,hpair⟩ := map_eq_ok htext
    obtain ⟨-,rfl⟩ := Prod.mk.inj hpair
    obtain rfl := Except.ok.inj hret
    exact ⟨rfl,rfl,hnone⟩
  · contradiction
  · contradiction

/-- A template links to module files. -/
theorem of_compile (h : compile fs redirects options path content = .ok t) :
    t.path = path ∧ t.sourceHash = textHash content ∧ ∀ d ∈ t.links.modules, fs.IsModuleFile d :=
  of_compile_of_keeps (Surroundings.keeps_link ⟨path,fs,redirects⟩) (fun _ hd => absurd hd List.not_mem_nil) h

end Template

namespace FileSet

variable {fs : FileSet} {redirects : Redirects} {options : TransformOptions} {b : StagedBuild}

/-- One module comes from each module file, in their order. -/
theorem forall₂_of_stage (h : fs.stage redirects options = .ok b) :
    List.Forall₂ (fun f m => Template.compile fs redirects options f.1 f.2 = .ok m.template ∧
      m = .ofTemplate m.template) fs.modules b := by
  refine (forall₂_of_mapM h).imp fun f m hm => ?_
  obtain ⟨t,ht,rfl⟩ := map_eq_ok hm
  exact ⟨ht,rfl⟩

theorem exists_of_mem_stage {m : StagedModule} (h : fs.stage redirects options = .ok b) (hm : m ∈ b) :
    ∃ f ∈ fs.modules, Template.compile fs redirects options f.1 f.2 = .ok m.template ∧
      m = .ofTemplate m.template := by
  replace h := forall₂_of_stage h
  generalize fs.modules = files at h
  induction h with
  | nil => contradiction
  | cons hf _ ih =>
    rcases List.mem_cons.1 hm with rfl | hm
    · exact ⟨_,List.mem_cons_self,hf⟩
    · obtain ⟨f,hmem,hf'⟩ := ih hm
      exact ⟨f,List.mem_cons_of_mem _ hmem,hf'⟩

theorem paths_of_stage (h : fs.stage redirects options = .ok b) : b.paths = fs.modules.map (·.1) := by
  replace h := forall₂_of_stage h
  generalize fs.modules = files at h
  induction h with
  | nil => rfl
  | cons hm _ ih => exact congrArg₂ List.cons (Template.of_compile hm.1).1 ih

theorem mem_modules_of_isModuleFile {path : String} (h : fs.IsModuleFile path) :
    path ∈ fs.modules.map (·.1) := by
  obtain ⟨e,hget,he⟩ := (Option.any_eq_true _ _).1 h.1
  cases e with
  | directory => contradiction
  | file content =>
    have hfile : (path,content) ∈ fs.files :=
      List.mem_filterMap.2 ⟨_,OrderedMap.mem_of_find? hget,rfl⟩
    exact List.mem_map.2 ⟨_,List.mem_filter.2 ⟨hfile,h.2⟩,rfl⟩

theorem pairwise_modules (h : OrderedMap.IsOrdered fs) : (fs.modules.map (·.1)).Pairwise (· < ·) := by
  have hfiles : fs.files.Pairwise fun f f' => f.1 < f'.1 := by
    refine h.filterMap _ fun e e' hlt f hf f' hf' => ?_
    obtain ⟨p,_ | _⟩ := e <;> obtain ⟨p',_ | _⟩ := e' <;> cases hf <;> cases hf'
    exact hlt
  exact List.pairwise_map.2 (hfiles.filter _)

theorem nodup_modules (h : OrderedMap.IsOrdered fs) : (fs.modules.map (·.1)).Nodup := by
  refine List.Pairwise.imp (fun hlt heq => ?_) (pairwise_modules h)
  exact Std.Irrefl.irrefl (r := (· < ·)) _ (heq ▸ hlt)

end FileSet

namespace StagedBuild

/-- Is a build what some snapshot is compiled to? -/
def IsStaged (b : StagedBuild) : Prop :=
  ∃ (fs : FileSet) (redirects : Redirects) (options : TransformOptions),
    OrderedMap.IsOrdered fs ∧ fs.stage redirects options = .ok b

variable {b : StagedBuild}

theorem isStaged_of_isOk {fs : FileSet} {redirects : Redirects} {options : TransformOptions}
    (ho : OrderedMap.IsOrdered fs) (h : (fs.stage redirects options).isOk = true) :
    IsStaged ((fs.stage redirects options).toOption.getD []) :=
  ⟨fs,redirects,options,ho,eq_ok_of_isOk h []⟩

theorem IsStaged.pairwise_paths (h : b.IsStaged) : b.paths.Pairwise (· < ·) := by
  obtain ⟨fs,redirects,options,ho,hb⟩ := h
  rw [FileSet.paths_of_stage hb]
  exact FileSet.pairwise_modules ho

theorem IsStaged.nodup_paths (h : b.IsStaged) : b.paths.Nodup := by
  obtain ⟨fs,redirects,options,ho,hb⟩ := h
  rw [FileSet.paths_of_stage hb]
  exact FileSet.nodup_modules ho

theorem IsStaged.mem_paths_of_link {m : StagedModule} {d : String} (h : b.IsStaged) (hm : m ∈ b)
    (hd : d ∈ m.template.links.modules) : d ∈ b.paths := by
  obtain ⟨fs,redirects,options,ho,hb⟩ := h
  obtain ⟨f,-,hf⟩ := FileSet.exists_of_mem_stage hb hm
  rw [FileSet.paths_of_stage hb]
  exact FileSet.mem_modules_of_isModuleFile ((Template.of_compile hf.1).2.2 d hd)

theorem IsStaged.eq_ofTemplate {m : StagedModule} (h : b.IsStaged) (hm : m ∈ b) :
    m = .ofTemplate m.template := by
  obtain ⟨fs,redirects,options,ho,hb⟩ := h
  obtain ⟨f,-,hf⟩ := FileSet.exists_of_mem_stage hb hm
  exact hf.2

end StagedBuild

end PreviewCompiler
