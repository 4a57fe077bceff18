import PreviewCompiler.Proofs.Files.Tree

namespace PreviewCompiler

open Data PreviewCompiler.Path

namespace FileSet

variable {fs : FileSet} {path content p a : String}

theorem get?_insertFile_ne_none (h : get? p fs ≠ none) : get? p (insertFile path content fs) ≠ none := by
  obtain ⟨e,he⟩ := Option.ne_none_iff_exists'.1 h
  rw [get?_insertFile,he]
  split <;> exact Option.some_ne_none _

theorem get?_insertDirectory_of_some {e : Entry} (h : get? p fs = some e) :
    get? p (insertDirectory path fs) = some e := by
  rw [get?_insertDirectory,h]
  rfl

theorem isFile_insertFile (h : isFile a fs = true) : isFile a (insertFile path content fs) = true := by
  obtain ⟨content',he⟩ := isFile_iff.1 h
  refine isFile_iff.2 ?_
  rw [get?_insertFile,he]
  split <;> exact ⟨_,rfl⟩

namespace Change

/-- Does a change take nothing away? -/
def isPut : Change → Bool
  | file .. | directory _ => true
  | removal _ => false

/-- Nothing that is put mends a tree. -/
theorem isBroken_apply (h : fs.IsBroken) {c : Change} (hc : c.isPut = true) : (c.apply fs).IsBroken := by
  cases c with
  | removal path => contradiction
  | file path content =>
    rw [apply]
    refine h.imp get?_insertFile_ne_none ?_
    rintro ⟨p,a,hp,ha,hfile⟩
    exact ⟨p,a,get?_insertFile_ne_none hp,ha,isFile_insertFile hfile⟩
  | directory path =>
    have hkeep : ∀ {q}, get? q fs ≠ none → get? q (insertDirectory path fs) ≠ none := fun hq => by
      obtain ⟨e,he⟩ := Option.ne_none_iff_exists'.1 hq
      rw [get?_insertDirectory_of_some he]
      exact Option.some_ne_none _
    rw [apply]
    refine h.imp hkeep ?_
    rintro ⟨p,a,hp,ha,hfile⟩
    obtain ⟨content,hcontent⟩ := isFile_iff.1 hfile
    exact ⟨p,a,hkeep hp,ha,isFile_iff.2 ⟨content,get?_insertDirectory_of_some hcontent⟩⟩

theorem isBroken_run (h : fs.IsBroken) {cs : List Change} (hcs : ∀ c ∈ cs, c.isPut = true) : (run cs fs).IsBroken :=
  List.foldlRecOn (motive := IsBroken) cs _ h fun _ hm c hc => isBroken_apply hm (hcs c hc)

/-- Does each of some changes fit what it finds? -/
def FitAlong : List Change → FileSet → Prop
  | [], _ => True
  | c :: cs, fs => c.Fits fs ∧ FitAlong cs (c.apply fs)

/-- If nothing is taken away after the first change, the changes keep a tree one exactly if all of them fit. -/
theorem isTree_run_iff (h : fs.IsTree) {cs : List Change} (hcs : ∀ c ∈ cs.tail, c.isPut = true) :
    (run cs fs).IsTree ↔ FitAlong cs fs := by
  induction cs generalizing fs with
  | nil => exact iff_of_true h trivial
  | cons c cs ih =>
    have hcons : run (c :: cs) fs = run cs (c.apply fs) := rfl
    rw [hcons,FitAlong]
    by_cases hfits : c.Fits fs
    · rw [ih ((isTree_apply_iff h c).2 hfits) fun c hc => hcs c (List.mem_of_mem_tail hc),and_iff_right hfits]
    · have hbroken := isBroken_run (isBroken_apply_of_not_fits h.toIsSnapshot hfits) hcs
      exact iff_of_false hbroken.not_isTree fun hn => hfits hn.1

end Change

end FileSet

namespace FileOperation

open FileSet

variable {op : FileOperation} {fs fs' : FileSet}

/-- An entry at another path. -/
def moveChange (source target : String) (e : String × Entry) : Change :=
  match e.2 with
  | .file content => .file (movePath source target e.1) content
  | .directory => .directory (movePath source target e.1)

/-- The changes that an operation makes if it does not fail. -/
def changes (op : FileOperation) (fs : FileSet) : List Change :=
  match op with
  | create path content | edit path content => [.file (normalize path) content]
  | createDirectory path => [.directory (normalize path)]
  | rename source target =>
    .removal (normalize source) ::
      (entriesAt (normalize source) fs).map (moveChange (normalize source) (normalize target))
  | delete path => [.removal (normalize path)]

theorem apply_moveChange (source target : String) (e : String × Entry) (fs : FileSet) :
    (moveChange source target e).apply fs = insertMoved source target fs e := by
  unfold moveChange insertMoved
  cases e.2 <;> rw [Change.apply]

theorem isPut_moveChange (source target : String) (e : String × Entry) : (moveChange source target e).isPut = true := by
  obtain ⟨p,_ | _⟩ := e <;> rfl

theorem isPut_of_mem_tail_changes {c : Change} (h : c ∈ (op.changes fs).tail) : c.isPut = true := by
  cases op with
  | create | edit | createDirectory | delete => contradiction
  | rename source target =>
    obtain ⟨e,-,rfl⟩ := List.mem_map.1 h
    exact isPut_moveChange _ _ e

theorem run_eq_changes (h : op.run fs = .ok fs') : fs' = Change.run (op.changes fs) fs := by
  have hsingle : ∀ c : Change, Change.run [c] fs = c.apply fs := fun _ => rfl
  cases op with
  | create path content =>
    simp only [run] at h
    split at h
    · contradiction
    · rw [changes,hsingle,Change.apply]
      exact (Except.ok.inj h).symm
  | createDirectory path =>
    simp only [run] at h
    split at h
    · contradiction
    · rw [changes,hsingle,Change.apply]
      exact (Except.ok.inj h).symm
  | edit path content =>
    simp only [run] at h
    split at h
    · rw [changes,hsingle,Change.apply]
      exact (Except.ok.inj h).symm
    · contradiction
  | rename source target =>
    simp only [run] at h
    split at h
    · contradiction
    · split at h
      · contradiction
      · rw [changes,Change.run,List.foldl_cons,List.foldl_map]
        simp only [apply_moveChange]
        exact (Except.ok.inj h).symm
  | delete path =>
    simp only [run] at h
    split at h
    · rename_i hr
      obtain rfl := Except.ok.inj h
      rw [changes,hsingle,Change.apply,hr]
      rfl
    · contradiction

/-- Does an operation fail, or do all its changes fit? -/
def Fits (op : FileOperation) (fs : FileSet) : Prop := (op.run fs).isOk = true → Change.FitAlong (op.changes fs) fs

end FileOperation

namespace MemoryFiles

/-- The files after an operation, which are the same if it fails. -/
def next (m : MemoryFiles) (op : FileOperation) : MemoryFiles := (m.apply op).toOption.getD m

/-- The files after some operations. -/
def run (ops : List FileOperation) (m : MemoryFiles) : MemoryFiles := ops.foldl next m

variable {m : MemoryFiles}

theorem files_next (m : MemoryFiles) (op : FileOperation) :
    (m.next op).files = (op.run m.files).toOption.getD m.files := by
  unfold next apply
  cases op.run m.files <;> rfl

theorem isSnapshot_run (h : m.files.IsSnapshot) (ops : List FileOperation) : (m.run ops).files.IsSnapshot := by
  refine List.foldlRecOn (motive := fun m : MemoryFiles => m.files.IsSnapshot) ops _ h fun m hm op _ => ?_
  rw [files_next]
  cases hr : op.run m.files with
  | error e => exact hm
  | ok fs => exact FileOperation.isSnapshot_run hm hr

theorem isTree_next_iff (h : m.files.IsTree) (op : FileOperation) : (m.next op).files.IsTree ↔ op.Fits m.files := by
  rw [files_next,FileOperation.Fits]
  cases hr : op.run m.files with
  | error e => exact iff_of_true h nofun
  | ok fs =>
    have hput : ∀ c ∈ (op.changes m.files).tail, c.isPut = true := fun c hc =>
      FileOperation.isPut_of_mem_tail_changes hc
    have htree := FileSet.Change.isTree_run_iff h hput
    rw [← FileOperation.run_eq_changes hr] at htree
    exact htree.trans ⟨fun hfits _ => hfits,fun hfits => hfits rfl⟩

end MemoryFiles

namespace FileSet

/-- Whatever is done, the paths of a snapshot are canonical, each of them once; and the snapshots that a run of changes
goes through are trees exactly if every change fits the one that it finds, also where the changes are those of an
editor's operations. -/
theorem trees_along_runs (cs : List Change) (ops : List FileOperation) :
    let m : MemoryFiles := { files := Change.run cs [] }
    m.files.IsSnapshot ∧ (m.run ops).files.IsSnapshot ∧
    ((∀ before, before <+: cs → (Change.run before []).IsTree) ↔
      ∀ before c, before ++ [c] <+: cs → c.Fits (Change.run before [])) ∧
    (m.files.IsTree → ((∀ before, before <+: ops → (m.run before).files.IsTree) ↔
      ∀ before op, before ++ [op] <+: ops → op.Fits (m.run before).files)) := by
  intro m
  have hs : m.files.IsSnapshot := Change.isSnapshot_run isSnapshot_empty cs
  refine ⟨hs,MemoryFiles.isSnapshot_run hs ops,?_,fun ht => ?_⟩
  · have hstep : ∀ (fs : FileSet) (c : Change), fs.IsTree → ((c.apply fs).IsTree ↔ c.Fits fs) :=
      fun _ c h => Change.isTree_apply_iff h c
    exact good_along_iff hstep isTree_empty cs
  · have hstep : ∀ (m : MemoryFiles) (op : FileOperation), m.files.IsTree →
      ((m.next op).files.IsTree ↔ op.Fits m.files) := fun _ op h => MemoryFiles.isTree_next_iff h op
    exact good_along_iff hstep ht ops

/-- A file can be put at the root, and one below another file; when that one is deleted, no directory is around it. -/
theorem tree_lost_below_file :
    Change.run [.file "" "x"] [] = [("/",.file "x")] ∧
    (({} : MemoryFiles).run [.create "/a" "x",.create "/a/b" "y"]).files = [("/a",.file "x"),("/a/b",.file "y")] ∧
    (({} : MemoryFiles).run [.create "/a" "x",.create "/a/b" "y",.delete "/a"]).files = [("/a/b",.file "y")] ∧
    ¬ (∀ cs, (Change.run cs []).IsTree) ∧ ¬ ∀ ops, (({} : MemoryFiles).run ops).files.IsTree := by
  have hroot : Change.run [.file "" "x"] [] = [("/",.file "x")] := by decide +kernel
  have horphan : (({} : MemoryFiles).run [.create "/a" "x",.create "/a/b" "y",.delete "/a"]).files =
      [("/a/b",.file "y")] := by decide +kernel
  refine ⟨hroot,by decide +kernel,horphan,fun h => ?_,fun h => ?_⟩
  · have ht := h [.file "" "x"]
    rw [hroot] at ht
    exact ht.rootless _ List.mem_cons_self rfl
  · have ht := h [.create "/a" "x",.create "/a/b" "y",.delete "/a"]
    rw [horphan] at ht
    have hdir := ht.above _ List.mem_cons_self "/a" (by decide +kernel)
    exact absurd hdir (by decide +kernel)

end FileSet

end PreviewCompiler
