import PreviewCompiler.Files.VirtualFile
import PreviewCompiler.Preview.Session
import PreviewCompiler.Proofs.Data.OrderedMap
import PreviewCompiler.Proofs.Files.Editing

namespace PreviewCompiler

open Data PreviewCompiler.Path

/-- An entry with a path. -/
def VirtualFile.ofEntry (path : String) : Entry → VirtualFile
  | .file content => ⟨path,content,.file⟩
  | .directory => .directory path

namespace VirtualFile

@[simp]
theorem path_ofEntry (path : String) (e : Entry) : (ofEntry path e).path = path := by
  cases e <;> rfl

@[simp]
theorem isFile_ofEntry (path : String) (e : Entry) : (ofEntry path e).isFile = e.isFile := by
  cases e <;> rfl

@[simp]
theorem entry_ofEntry (path : String) (e : Entry) : (ofEntry path e).entry = e := by
  cases e <;> rfl

end VirtualFile

/-- A snapshot as it is stored. -/
def FileSet.stored (fs : FileSet) : VirtualFiles := OrderedMap.mapValues VirtualFile.ofEntry fs

namespace VirtualFiles

open FileSet

variable {fs : FileSet}

theorem path_of_mem_stored {e : String × VirtualFile} (h : e ∈ fs.stored) : e.2.path = e.1 := by
  obtain ⟨e,-,rfl⟩ := List.mem_map.1 h
  exact VirtualFile.path_ofEntry e.1 e.2

/-- Nothing is lost with the paths. -/
theorem entries_stored (fs : FileSet) : OrderedMap.mapValues (fun _ f => f.entry) fs.stored = fs := by
  rw [stored,OrderedMap.mapValues,OrderedMap.mapValues,List.map_map]
  exact (List.map_congr_left fun e _ => congrArg (e.1,·) (VirtualFile.entry_ofEntry e.1 e.2)).trans (List.map_id fs)

theorem get?_stored (path : String) (fs : FileSet) :
    get? path fs.stored = (FileSet.get? path fs).map (VirtualFile.ofEntry path) :=
  OrderedMap.find?_mapValues VirtualFile.ofEntry path fs

theorem isFile_stored (path : String) (fs : FileSet) : isFile path fs.stored = FileSet.isFile path fs := by
  rw [isFile,get?_stored,Option.any_map,FileSet.isFile]
  exact congrArg (Option.any · _) (funext fun e => VirtualFile.isFile_ofEntry path e)

theorem insertParents_stored (path : String) (fs : FileSet) :
    insertParents path fs.stored = (FileSet.insertParents path fs).stored :=
  List.foldl_hom FileSet.stored fun fs p => OrderedMap.insertNew_mapValues VirtualFile.ofEntry p .directory fs

theorem insertFile_stored (path content : String) (fs : FileSet) :
    insertFile path content fs.stored = (FileSet.insertFile path content fs).stored := by
  rw [insertFile,insertParents_stored]
  exact OrderedMap.insert_mapValues VirtualFile.ofEntry (normalize path) (.file content) _

theorem insertDirectory_stored (path : String) (fs : FileSet) :
    insertDirectory path fs.stored = (FileSet.insertDirectory path fs).stored := by
  rw [insertDirectory,FileSet.insertDirectory,insertParents_stored]
  split
  · rfl
  · exact OrderedMap.insertNew_mapValues VirtualFile.ofEntry (normalize path) .directory _

theorem remove_stored (path : String) (fs : FileSet) : remove path fs.stored =
    (FileSet.remove path fs).map fun r => (.ofEntry (normalize path) r.1,r.2.stored) := by
  have herase : OrderedMap.erase (normalize path) fs.stored = FileSet.stored (OrderedMap.erase (normalize path) fs) :=
    OrderedMap.filter_mapValues VirtualFile.ofEntry (fun p => decide (p ≠ normalize path)) fs
  have hbelow : ∀ fs : FileSet, fs.stored.filter (fun e => !isBelow (normalize path) e.1) =
      FileSet.stored (fs.filter fun e => !isBelow (normalize path) e.1) := fun fs =>
    OrderedMap.filter_mapValues VirtualFile.ofEntry (fun p => !isBelow (normalize path) p) fs
  simp only [remove,FileSet.remove,get?_stored,Option.map_map]
  refine congrArg (Option.map · _) (funext fun e => ?_)
  simp only [Function.comp_apply,VirtualFile.isFile_ofEntry,herase,hbelow]
  split <;> rfl

theorem files_stored (fs : FileSet) : fs.stored.files.map (fun f => (f.path,f.content)) = fs.files := by
  induction fs with
  | nil => rfl
  | cons e fs ih =>
    obtain ⟨p,content | _⟩ := e
    · exact congrArg ((p,content) :: ·) ih
    · exact ih

theorem fingerprint_stored (fs : FileSet) : fingerprint fs.stored = fs.fingerprint := by
  rw [fingerprint,files_stored,FileSet.fingerprint]

theorem entriesAt_stored (path : String) (fs : FileSet) :
    entriesAt path fs.stored = (FileOperation.entriesAt path fs).map fun e => .ofEntry e.1 e.2 := by
  have hvalues : fs.stored.values = fs.map fun e => VirtualFile.ofEntry e.1 e.2 := List.map_map
  rw [entriesAt,hvalues,List.filter_map]
  simp only [Function.comp_def,VirtualFile.path_ofEntry]
  rfl

theorem insertMoved_stored (source target : String) (fs : FileSet) (e : String × Entry) :
    insertMoved source target fs.stored (.ofEntry e.1 e.2) = (FileOperation.insertMoved source target fs e).stored := by
  obtain ⟨p,content | _⟩ := e
  · exact insertFile_stored (FileOperation.movePath source target p) content fs
  · exact insertDirectory_stored (FileOperation.movePath source target p) fs

theorem foldl_insertMoved_stored (source target : String) (fs : FileSet) (es : List (String × Entry)) :
    (es.map fun e => VirtualFile.ofEntry e.1 e.2).foldl (insertMoved source target) fs.stored =
      FileSet.stored (es.foldl (FileOperation.insertMoved source target) fs) := by
  rw [List.foldl_map]
  exact List.foldl_hom FileSet.stored fun fs e => insertMoved_stored source target fs e

/-- An operation does the same to a snapshot that is stored. -/
theorem run_stored (op : FileOperation) (fs : FileSet) : run op fs.stored = (op.run fs).map FileSet.stored := by
  cases op with
  | create path content =>
    simp only [run,FileOperation.run,get?_stored,Option.isSome_map,insertFile_stored]
    split <;> rfl
  | createDirectory path =>
    simp only [run,FileOperation.run,isFile_stored,insertDirectory_stored]
    split <;> rfl
  | edit path content =>
    simp only [run,FileOperation.run,isFile_stored,insertFile_stored]
    split <;> rfl
  | rename source target =>
    have hrest : ((remove (normalize source) fs.stored).map (·.2)).getD fs.stored =
        FileSet.stored (((FileSet.remove (normalize source) fs).map (·.2)).getD fs) := by
      rw [remove_stored]
      cases FileSet.remove (normalize source) fs <;> rfl
    simp only [run,FileOperation.run,get?_stored,Option.isSome_map,entriesAt_stored,hrest]
    split
    · rfl
    · cases FileOperation.entriesAt (normalize source) fs with
      | nil => rfl
      | cons e es => exact congrArg Except.ok (foldl_insertMoved_stored _ _ _ (e :: es))
  | delete path =>
    simp only [run,FileOperation.run,remove_stored]
    cases FileSet.remove (normalize path) fs <;> rfl

/-- A change of a snapshot that is stored. -/
def change : FileSet.Change → VirtualFiles → VirtualFiles
  | .file path content, fs => insertFile path content fs
  | .directory path, fs => insertDirectory path fs
  | .removal path, fs => ((remove path fs).map (·.2)).getD fs

theorem change_stored (c : FileSet.Change) (fs : FileSet) : change c fs.stored = (c.apply fs).stored := by
  cases c with
  | file path content => exact insertFile_stored path content fs
  | directory path => exact insertDirectory_stored path fs
  | removal path =>
    simp only [change,remove_stored,FileSet.Change.apply]
    cases FileSet.remove path fs <;> rfl

/-- The stored files after an operation, which are the same if it fails. -/
def next (fs : VirtualFiles) (op : FileOperation) : VirtualFiles := (run op fs).toOption.getD fs

/-- However stored files come about, each entry has the path that it is behind.  Without these paths they are the files
that come about without them, and both are read alike. -/
theorem stored_along_runs (cs : List FileSet.Change) (ops : List FileOperation) :
    let fs := ops.foldl next (cs.foldl (fun fs c => change c fs) [])
    let m := ({ files := FileSet.Change.run cs [] } : MemoryFiles).run ops
    fs = m.files.stored ∧ (∀ e ∈ fs, e.2.path = e.1) ∧ OrderedMap.mapValues (fun _ f => f.entry) fs = m.files ∧
      fs.fingerprint = m.files.fingerprint ∧ fs.files.map (fun f => (f.path,f.content)) = m.files.files := by
  intro fs m
  have hchanges : cs.foldl (fun fs c => change c fs) (FileSet.stored []) = (FileSet.Change.run cs []).stored :=
    List.foldl_hom FileSet.stored fun fs c => change_stored c fs
  have hnext (m : MemoryFiles) (op : FileOperation) : next m.files.stored op = (m.next op).files.stored := by
    rw [next,run_stored,MemoryFiles.files_next]
    cases op.run m.files <;> rfl
  have hops (m : MemoryFiles) : ops.foldl next m.files.stored = (m.run ops).files.stored :=
    List.foldl_hom (fun m : MemoryFiles => m.files.stored) hnext
  have hrun : fs = m.files.stored :=
    (congrArg (ops.foldl next) hchanges).trans (hops { files := FileSet.Change.run cs [] })
  rw [hrun]
  exact ⟨rfl,fun _ => path_of_mem_stored,entries_stored _,fingerprint_stored _,files_stored _⟩

end VirtualFiles

end PreviewCompiler
