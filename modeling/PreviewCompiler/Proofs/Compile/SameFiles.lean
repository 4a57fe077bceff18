import PreviewCompiler.Preview.Session
import PreviewCompiler.Proofs.Compile.Links
import PreviewCompiler.Proofs.Hash.Fingerprint
import Mathlib.Data.List.Basic

namespace PreviewCompiler

open Data Script

namespace FileSet

variable {fs fs' : FileSet}

/-- Are the same paths files in two snapshots? -/
def SamePaths (fs fs' : FileSet) : Prop := ∀ path, isFile path fs = isFile path fs'

theorem isFile_iff_mem_files (ho : OrderedMap.IsOrdered fs) {path : String} :
    isFile path fs = true ↔ path ∈ fs.files.map (·.1) := by
  constructor
  · intro h
    obtain ⟨e,hget,he⟩ := (Option.any_eq_true _ _).1 h
    cases e with
    | directory => contradiction
    | file content =>
      exact List.mem_map.2 ⟨(path,content),List.mem_filterMap.2 ⟨_,OrderedMap.mem_of_find? hget,rfl⟩,rfl⟩
  · intro h
    obtain ⟨⟨path',content⟩,hf,rfl⟩ := List.mem_map.1 h
    obtain ⟨⟨path'',e⟩,he,heq⟩ := List.mem_filterMap.1 hf
    cases e with
    | directory => contradiction
    | file content' =>
      obtain ⟨rfl,rfl⟩ := Prod.mk.inj (Option.some.inj heq)
      exact (Option.any_eq_true _ _).2 ⟨_,(OrderedMap.find?_eq_some_iff ho).2 he,rfl⟩

theorem isModuleFile_of_mem_modules {path : String} (ho : OrderedMap.IsOrdered fs)
    (h : path ∈ fs.modules.map (·.1)) : fs.IsModuleFile path := by
  obtain ⟨f,hf,rfl⟩ := List.mem_map.1 h
  obtain ⟨hmem,hm⟩ := List.mem_filter.1 hf
  exact ⟨(isFile_iff_mem_files ho).2 (List.mem_map.2 ⟨f,hmem,rfl⟩),hm⟩

/-- The staged paths are those of the module files. -/
theorem mem_paths_of_stage {redirects : Redirects} {options : TransformOptions} {b : StagedBuild} {path : String}
    (ho : OrderedMap.IsOrdered fs) (h : fs.stage redirects options = .ok b) :
    path ∈ b.paths ↔ fs.IsModuleFile path := by
  rw [paths_of_stage h]
  exact ⟨isModuleFile_of_mem_modules ho,mem_modules_of_isModuleFile⟩

theorem samePaths_of_paths_eq (ho : OrderedMap.IsOrdered fs) (ho' : OrderedMap.IsOrdered fs')
    (h : fs.files.map (·.1) = fs'.files.map (·.1)) : fs.SamePaths fs' := by
  intro path
  rw [Bool.eq_iff_iff,isFile_iff_mem_files ho,isFile_iff_mem_files ho',h]

theorem samePaths_of_files_eq (ho : OrderedMap.IsOrdered fs) (ho' : OrderedMap.IsOrdered fs')
    (h : fs.files = fs'.files) : fs.SamePaths fs' := samePaths_of_paths_eq ho ho' (congrArg (List.map Prod.fst) h)

end FileSet

section

variable {fs fs' : FileSet}

theorem Resolution.resolve_congr (h : fs.SamePaths fs') : resolve fs = resolve fs' := by
  funext specifier importer
  simp only [resolve,probe,show (FileSet.isFile · fs) = (FileSet.isFile · fs') from funext h]

namespace Surroundings

variable (importer : String) (redirects : Redirects)

theorem link_congr (h : fs.SamePaths fs') : link ⟨importer,fs,redirects⟩ = link ⟨importer,fs',redirects⟩ := by
  funext specifier
  simp only [link,Resolution.resolve_congr h]

theorem isStyleImport_congr (h : fs.SamePaths fs') :
    isStyleImport ⟨importer,fs,redirects⟩ = isStyleImport ⟨importer,fs',redirects⟩ := by
  funext n
  simp only [isStyleImport,Resolution.resolve_congr h]

theorem dropStyleImports_congr (h : fs.SamePaths fs') (items : List Node) :
    dropStyleImports ⟨importer,fs,redirects⟩ items = dropStyleImports ⟨importer,fs',redirects⟩ items := by
  induction items with
  | nil => rfl
  | cons n items ih => rw [dropStyleImports,dropStyleImports,ih,isStyleImport_congr importer redirects h]

theorem linkProgram_congr (h : fs.SamePaths fs') (p : Program) :
    linkProgram ⟨importer,fs,redirects⟩ p = linkProgram ⟨importer,fs',redirects⟩ p := by
  simp only [linkProgram,linkItems,link_congr importer redirects h,dropStyleImports_congr importer redirects h]

end Surroundings

theorem Template.compile_congr (h : fs.SamePaths fs') (redirects : Redirects) (options : TransformOptions)
    (path content : String) :
    compile fs redirects options path content = compile fs' redirects options path content := by
  simp only [compile,ofScript,Surroundings.linkProgram_congr path redirects h]

end

namespace FileSet

variable {fs fs' : FileSet}

theorem fingerprint_congr (h : fs.files = fs'.files) : fs.fingerprint = fs'.fingerprint := by
  rw [fingerprint,fingerprint,h]

theorem stage_congr (hp : fs.SamePaths fs') (h : fs.files = fs'.files) (redirects : Redirects)
    (options : TransformOptions) : fs.stage redirects options = fs'.stage redirects options := by
  simp only [stage,modules,h,Template.compile_congr hp]

theorem styles_congr (h : fs.files = fs'.files) (options : StyleOptions) : fs.styles options = fs'.styles options := by
  simp only [styles,plainStyles,stylesheets,h]

end FileSet

theorem Pipeline.build_congr {fs fs' : FileSet} (p : Pipeline) (ho : OrderedMap.IsOrdered fs)
    (ho' : OrderedMap.IsOrdered fs') (h : fs.files = fs'.files) : p.build fs = p.build fs' := by
  simp only [build,FileSet.stage_congr (FileSet.samePaths_of_files_eq ho ho' h) h,FileSet.styles_congr h,
    FileSet.fingerprint_congr h]

namespace FileSet

/-- The bytes that are hashed for a snapshot. -/
def hashInput (fs : FileSet) : List UInt8 := Fingerprint.encode (fs.files.map fun f => (f.1,textBytes f.2))

/-- Are the paths and the contents shorter than `2 ^ 64` bytes, as all are that a memory can hold? -/
def Fits (fs : FileSet) : Prop := ∀ f ∈ fs.files, Fingerprint.Fits (textBytes f.1) ∧ Fingerprint.Fits (textBytes f.2)

instance (fs : FileSet) : Decidable fs.Fits := inferInstanceAs (Decidable (∀ f ∈ fs.files, _))

theorem fingerprint_eq (fs : FileSet) : fs.fingerprint = Blake3.hash fs.hashInput := rfl

/-- What is hashed for a snapshot tells its files. -/
theorem Fits.files_eq {fs fs' : FileSet} (h : fs.Fits) (h' : fs'.Fits) (heq : fs.hashInput = fs'.hashInput) :
    fs.files = fs'.files := by
  have hfit : ∀ {fs : FileSet}, fs.Fits → ∀ e ∈ fs.files.map fun f => (f.1,textBytes f.2),
      Fingerprint.Fits (textBytes e.1) ∧ Fingerprint.Fits e.2 := by
    intro fs h e he
    obtain ⟨f,hf,rfl⟩ := List.mem_map.1 he
    exact h f hf
  have hfiles := Fingerprint.encode_injective (hfit h) (hfit h') heq
  refine List.map_injective_iff.2 (fun f f' hf => ?_) hfiles
  obtain ⟨hpath,hcontent⟩ := Prod.mk.inj hf
  exact Prod.ext hpath (textBytes_injective hcontent)

/-- Without a collision, snapshots with one fingerprint have the same files. -/
theorem files_eq_of_fingerprint_eq {fs fs' : FileSet} {snapshots : List FileSet}
    (hfit : ∀ fs ∈ snapshots, fs.Fits) (hinj : Blake3.NoCollision (snapshots.map hashInput))
    (hfs : fs ∈ snapshots) (hfs' : fs' ∈ snapshots) (h : fs.fingerprint = fs'.fingerprint) :
    fs.files = fs'.files := by
  rw [fingerprint_eq,fingerprint_eq] at h
  exact (hfit fs hfs).files_eq (hfit fs' hfs')
    (hinj _ (List.mem_map_of_mem hfs) _ (List.mem_map_of_mem hfs') h)

end FileSet

end PreviewCompiler
