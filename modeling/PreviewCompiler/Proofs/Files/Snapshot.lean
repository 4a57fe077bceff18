import PreviewCompiler.Files.Operation
import PreviewCompiler.Project

namespace PreviewCompiler

open Data

theorem Disk.find_top (es : List (RawText × DiskNode)) :
    ({ top := .directory es } : Disk).find "/" = .ok ([],.directory es) := by
  have hnames : RawText.names "/" = [RawText.ofText "."] := by decide +kernel
  have hfollow : follow (.directory es) true linkLimit [RawText.ofText "."] [] = .ok [] := by
    rw [follow,follow,DiskNode.get?_nil]
    rfl
  have hlocate : ({ top := .directory es } : Disk).locate "/" true = .ok [] := by
    rw [← hfollow,← hnames]
    rfl
  simp only [find,hlocate,bind,Except.bind,DiskNode.get?_nil]
  rfl

namespace FileSet

variable {fs fs' : FileSet}

theorem isOrdered_insertParents (h : OrderedMap.IsOrdered fs) (path : String) :
    OrderedMap.IsOrdered (insertParents path fs) :=
  List.foldlRecOn (motive := fun m : FileSet => OrderedMap.IsOrdered m) (Path.ancestors path) _ h
    fun _ hm p _ => hm.insertNew p _

theorem isOrdered_insertFile (h : OrderedMap.IsOrdered fs) (path content : String) :
    OrderedMap.IsOrdered (insertFile path content fs) :=
  (isOrdered_insertParents h _).insert _ _

theorem isOrdered_insertDirectory (h : OrderedMap.IsOrdered fs) (path : String) :
    OrderedMap.IsOrdered (insertDirectory path fs) := by
  simp only [insertDirectory]
  split
  · exact h
  · exact (isOrdered_insertParents h _).insertNew _ _

theorem isOrdered_of_remove {path : String} {e : Entry} (h : OrderedMap.IsOrdered fs)
    (hr : remove path fs = some (e,fs')) : OrderedMap.IsOrdered fs' := by
  obtain ⟨e',-,heq⟩ := Option.map_eq_some_iff.1 hr
  obtain ⟨-,rfl⟩ := Prod.mk.inj heq
  split
  · exact h.erase _
  · exact (h.erase _).filter _

theorem isOrdered_ofFiles (files : List (String × String)) : OrderedMap.IsOrdered (ofFiles files) :=
  List.foldlRecOn (motive := fun m : FileSet => OrderedMap.IsOrdered m) files _ List.Pairwise.nil
    fun _ hm f _ => isOrdered_insertFile hm f.1 f.2

theorem isOrdered_ofWalk (found : List Disk.Walked) : OrderedMap.IsOrdered (ofWalk found) := by
  refine List.foldlRecOn (motive := fun m : FileSet => OrderedMap.IsOrdered m) found _ List.Pairwise.nil ?_
  intro m hm w _
  unfold insertWalked
  split
  · exact isOrdered_insertFile hm _ _
  · exact isOrdered_insertDirectory hm _

theorem isOrdered_ofDisk {root : RawText} {d : Disk} (h : ofDisk root d = .ok fs) :
    OrderedMap.IsOrdered fs := by
  unfold ofDisk at h
  split at h
  · obtain rfl := Except.ok.inj h
    exact isOrdered_ofWalk _
  · contradiction

/-- The files stand in the order of their paths. -/
theorem isOrdered_files (h : OrderedMap.IsOrdered fs) : OrderedMap.IsOrdered (fs.files : OrderedMap String String) := by
  refine h.filterMap _ fun e e' hlt f hf f' hf' => ?_
  obtain ⟨p,_ | _⟩ := e <;> obtain ⟨p',_ | _⟩ := e' <;> cases hf <;> cases hf'
  exact hlt

/-- A disk has a snapshot of its top. -/
theorem ofDisk_top (es : List (RawText × DiskNode)) :
    ofDisk "/" { top := .directory es } = .ok (ofWalk (Disk.walkEntries [] es)) := by
  rw [ofDisk,Disk.walk,Disk.find_top]
  rfl

end FileSet

/-- What holds before an operation and is kept by putting files, making directories and removing holds after it. -/
theorem FileOperation.run_induction {P : FileSet → Prop} {fs fs' : FileSet} {op : FileOperation}
    (hfile : ∀ fs path content, P fs → P (FileSet.insertFile path content fs))
    (hdirectory : ∀ fs path, P fs → P (FileSet.insertDirectory path fs))
    (hremove : ∀ fs path e fs', P fs → FileSet.remove path fs = some (e,fs') → P fs')
    (h : P fs) (hr : op.run fs = .ok fs') : P fs' := by
  cases op with
  | create path content =>
    simp only [run] at hr
    split at hr
    · contradiction
    · obtain rfl := Except.ok.inj hr
      exact hfile _ _ _ h
  | createDirectory path =>
    simp only [run] at hr
    split at hr
    · contradiction
    · obtain rfl := Except.ok.inj hr
      exact hdirectory _ _ h
  | edit path content =>
    simp only [run] at hr
    split at hr
    · obtain rfl := Except.ok.inj hr
      exact hfile _ _ _ h
    · contradiction
  | rename source target =>
    simp only [run] at hr
    split at hr
    · contradiction
    · split at hr
      · contradiction
      · obtain rfl := Except.ok.inj hr
        refine List.foldlRecOn (motive := P) _ _ ?_ ?_
        · cases hsource : FileSet.remove (Path.normalize source) fs with
          | none => exact h
          | some result => exact hremove _ _ _ _ h hsource
        · intro m hm e _
          simp only [insertMoved]
          split
          · exact hfile _ _ _ hm
          · exact hdirectory _ _ hm
  | delete path =>
    simp only [run] at hr
    split at hr
    · rename_i hsource
      obtain rfl := Except.ok.inj hr
      exact hremove _ _ _ _ h hsource
    · contradiction

/-- An operation that succeeds leaves a snapshot in order. -/
theorem FileOperation.isOrdered_run {fs fs' : FileSet} {op : FileOperation} (h : OrderedMap.IsOrdered fs)
    (hr : op.run fs = .ok fs') : OrderedMap.IsOrdered fs' :=
  run_induction (fun _ path content h => FileSet.isOrdered_insertFile h path content)
    (fun _ path h => FileSet.isOrdered_insertDirectory h path) (fun _ _ _ _ => FileSet.isOrdered_of_remove) h hr

end PreviewCompiler
