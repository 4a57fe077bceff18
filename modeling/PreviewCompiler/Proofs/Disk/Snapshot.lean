import PreviewCompiler.Proofs.Disk.Walk
import PreviewCompiler.Proofs.Files.Insertion

namespace PreviewCompiler

open Data

namespace Disk

variable {place : List RawText} {name : RawText} {w : Walked}

theorem toList_slash_append_intercalate {names : List String} (hne : names ≠ []) :
    ("/" ++ "/".intercalate names).toList = Path.ofSegments (names.map String.toList) := by
  rw [Path.ofSegments_of_ne_nil (by simpa using hne)]
  induction names with
  | nil => contradiction
  | cons name names ih =>
    cases names with
    | nil => simp
    | cons name' names =>
      rw [List.map_cons,List.flatMap_cons,← ih (List.cons_ne_nil _ _),String.intercalate_cons_cons]
      simp

theorem isSegment_shown (h : name.IsName) (hkept : isIgnored name = false) (hback : '\\' ∉ name.shown.toList) :
    Path.IsSegment name.shown.toList := by
  have hself := ofText_shown_of_isIgnored hkept
  have hslash : '/' ∉ name.shown.toList := by
    rw [← RawText.slash_mem_ofText_iff,hself]
    exact h.no_slash
  have hdots : name.shown.toList ≠ ['.','.'] := by
    intro heq
    rw [← hself,isIgnored,RawText.text?_ofText] at hkept
    simp [isIgnoredName,heq] at hkept
  have hdot : name.shown.toList ≠ ['.'] := fun heq =>
    h.ne_dot (hself.symm.trans (congrArg RawText.ofText (String.toList_inj.1 heq)))
  have hempty : name.shown.toList ≠ [] := fun heq =>
    h.ne_empty (hself.symm.trans (congrArg RawText.ofText (String.toList_inj.1 heq)))
  refine ⟨hempty,hdot,hdots,fun c hc => ?_⟩
  have hc' : (c == '\\') = false := beq_eq_false_iff_ne.2 fun heq => hback (heq ▸ hc)
  have hc'' : (c == '/') = false := beq_eq_false_iff_ne.2 fun heq => hslash (heq ▸ hc)
  rw [Path.isSlash,hc',hc'']
  rfl

/-- The names on the way to what is found are the segments of its path exactly if none has a backslash. -/
theorem normalize_path_iff (hne : w.place ≠ []) (hnames : ∀ name ∈ w.place, name.IsName)
    (hkept : ∀ name ∈ w.place, isIgnored name = false) :
    Path.normalize w.path = "/" ++ w.path ↔ '\\' ∉ w.path.toList := by
  rw [← Path.normalize_slash_append,← Path.isCanonical_iff]
  have hsplit : '\\' ∈ ("/" ++ w.path).toList ↔ '\\' ∈ w.path.toList := by simp
  refine ⟨fun h hback => h.backslash_not_mem (hsplit.2 hback),fun hback => ?_⟩
  have htext : ("/" ++ w.path).toList = Path.ofSegments ((w.place.map RawText.shown).map String.toList) :=
    toList_slash_append_intercalate (by simpa using hne)
  rw [← hsplit,htext,Path.ofSegments_of_ne_nil (by simpa using hne)] at hback
  refine ⟨(w.place.map RawText.shown).map String.toList,fun s hs => ?_,htext⟩
  obtain ⟨text,htext,rfl⟩ := List.mem_map.1 hs
  obtain ⟨name,hname,rfl⟩ := List.mem_map.1 htext
  refine isSegment_shown (hnames name hname) (hkept name hname) fun hmem => hback ?_
  exact List.mem_flatMap.2 ⟨name.shown.toList,List.mem_map_of_mem htext,List.mem_cons_of_mem _ hmem⟩

/-- A file that is found, by its path and with its text. -/
def Walked.file? (w : Walked) : Option (String × String) :=
  match w with
  | file _ bytes => some (w.path,Text.Utf8.decodeLossy bytes)
  | directory _ => none

def walkedFiles (found : List Walked) : List (String × String) := found.filterMap Walked.file?

theorem Walked.path_of_file? {w : Walked} {f : String × String} (h : w.file? = some f) : w.path = f.1 := by
  cases w with
  | file place bytes => exact congrArg Prod.fst (Option.some.inj h)
  | directory place => contradiction

theorem nodup_paths_walkedFiles {top : DiskNode} (ht : top.IsTree) :
    ((walkedFiles (walkBelow top)).map (·.1)).Nodup := by
  refine List.pairwise_map.2 (List.Pairwise.filterMap _ ?_ (List.pairwise_map.1 (nodup_paths_walkBelow ht)))
  intro w w' hne f hf f' hf' heq
  rw [Walked.path_of_file? hf,Walked.path_of_file? hf'] at hne
  exact hne heq

theorem nodup_slash_paths_walkedFiles {top : DiskNode} (ht : top.IsTree) :
    (((walkedFiles (walkBelow top)).map fun f => ("/" ++ f.1,f.2)).map (·.1)).Nodup := by
  have hinj : Function.Injective fun path : String => "/" ++ path := fun _ _ => (String.append_right_inj "/").1
  have hmap := (nodup_paths_walkedFiles ht).map hinj
  rwa [List.map_map] at hmap ⊢

theorem normalize_iff_of_mem_walkedFiles {top : DiskNode} (ht : top.IsTree) {f : String × String}
    (hf : f ∈ walkedFiles (walkBelow top)) : Path.normalize f.1 = "/" ++ f.1 ↔ '\\' ∉ f.1.toList := by
  obtain ⟨w,hw,hfile⟩ := List.mem_filterMap.1 hf
  obtain ⟨hentry,hkept⟩ := (mem_walkBelow_iff ht).1 hw
  rw [← Walked.path_of_file? hfile]
  exact normalize_path_iff hentry.1 (hentry.isName ht) hkept

end Disk

namespace FileSet

open Disk

variable {found : List Walked} {q c : String}

theorem isSnapshot_ofWalk (found : List Walked) : IsSnapshot (ofWalk found) := by
  refine List.foldlRecOn (motive := IsSnapshot) found _ isSnapshot_empty fun fs hfs w _ => ?_
  unfold insertWalked
  split
  · exact isSnapshot_insertFile hfs _ _
  · exact isSnapshot_insertDirectory hfs _

/-- At a path is the last file that is found for it; a directory takes the place of none. -/
theorem file_ofWalk_iff (found : List Walked) :
    get? q (ofWalk found) = some (.file c) ↔ (placed (walkedFiles found)).reverse.lookup q = some c := by
  induction found using List.reverseRecOn with
  | nil => simp [ofWalk,walkedFiles,placed,get?,OrderedMap.find?]
  | append_singleton found w ih =>
    have hstep : ofWalk (found ++ [w]) = insertWalked (ofWalk found) w := by simp [ofWalk]
    rw [hstep]
    cases w with
    | directory place =>
      have hfiles : walkedFiles (found ++ [.directory place]) = walkedFiles found := by
        simp [walkedFiles,Walked.file?]
      rw [insertWalked,file_insertDirectory_iff,ih,hfiles]
    | file place bytes =>
      have hplaced : (placed (walkedFiles (found ++ [.file place bytes]))).reverse =
          (Path.normalize (Walked.file place bytes).path,Text.Utf8.decodeLossy bytes) ::
            (placed (walkedFiles found)).reverse := by
        simp [walkedFiles,Walked.file?,placed]
      rw [insertWalked,file_insertFile_iff,ih,hplaced,List.lookup_cons]
      by_cases hq : q = Path.normalize (Walked.file place bytes).path
      · simp [hq]
      · simp [hq,beq_eq_false_iff_ne.2 hq]

theorem mem_files_ofWalk_iff (found : List Walked) :
    (q,c) ∈ (ofWalk found).files ↔ (placed (walkedFiles found)).reverse.lookup q = some c := by
  rw [mem_files_iff (isOrdered_ofWalk found),file_ofWalk_iff]

/-- The files are where they are found exactly if no path has a backslash. -/
theorem files_ofWalk_perm_iff {top : DiskNode} (ht : top.IsTree) :
    (ofWalk (walkBelow top)).files.Perm ((walkedFiles (walkBelow top)).map fun f => ("/" ++ f.1,f.2)) ↔
      ∀ f ∈ walkedFiles (walkBelow top), '\\' ∉ f.1.toList := by
  have hkeys := nodup_slash_paths_walkedFiles ht
  constructor
  · intro hperm f hf
    have hmem : ("/" ++ f.1,f.2) ∈ (ofWalk (walkBelow top)).files :=
      hperm.mem_iff.2 (List.mem_map.2 ⟨f,hf,rfl⟩)
    have hget := (mem_files_iff (isOrdered_ofWalk _)).1 hmem
    have hcanonical := (isCanonical_of_get? (isSnapshot_ofWalk _) hget).normalize_eq
    rw [Path.normalize_slash_append] at hcanonical
    exact (normalize_iff_of_mem_walkedFiles ht hf).1 hcanonical
  · intro hback
    have hplaced : placed (walkedFiles (walkBelow top)) =
        (walkedFiles (walkBelow top)).map fun f => ("/" ++ f.1,f.2) := by
      refine List.map_congr_left fun f hf => ?_
      rw [(normalize_iff_of_mem_walkedFiles ht hf).2 (hback f hf)]
    have hapart : Apart (walkedFiles (walkBelow top)) := by
      have hpaths := hkeys
      rw [← hplaced,placed,List.map_map] at hpaths
      exact List.pairwise_map.1 hpaths
    have hfiles : (ofWalk (walkBelow top)).files.Nodup :=
      List.Nodup.of_map Prod.fst (nodup_paths_files (isOrdered_ofWalk _))
    refine (List.perm_ext_iff_of_nodup hfiles (List.Nodup.of_map Prod.fst hkeys)).2 fun f => ?_
    rw [← hplaced]
    exact (mem_files_ofWalk_iff _).trans hapart.lookup_eq_some_iff

variable {d : Disk} {root : RawText} {place : List RawText} {top : DiskNode}

/-- In a snapshot of a directory the file at a path is the last one that the walk finds for it, a backslash in a name
being a slash.  So the snapshot has each file that is found, once and at the path where it is found, and no other file,
exactly if there is no backslash in these paths. -/
theorem files_of_ofDisk (hroot : d.find root = .ok (place,top)) (ht : top.IsTree) :
    ∃ found fs, d.walk root = .ok found ∧ ofDisk root d = .ok fs ∧
      (∀ path text, (path,text) ∈ fs.files ↔ (placed (walkedFiles found)).reverse.lookup path = some text) ∧
      (fs.files.Perm ((walkedFiles found).map fun f => ("/" ++ f.1,f.2)) ↔
        ∀ f ∈ walkedFiles found, '\\' ∉ f.1.toList) := by
  have hwalk : d.walk root = .ok (walkBelow top) := by
    rw [walk,hroot]
    rfl
  have hsnapshot : ofDisk root d = .ok (ofWalk (walkBelow top)) := by rw [ofDisk,hwalk]
  exact ⟨walkBelow top,ofWalk (walkBelow top),hwalk,hsnapshot,fun _ _ => mem_files_ofWalk_iff _,
    files_ofWalk_perm_iff ht⟩

/-- The walk does not find the files in the order of their paths. -/
theorem files_of_ofDisk_beside_directory :
    let top := DiskNode.directory [("a",.directory [("b.js",.file [])]),("a.js",.file [])]
    let d : Disk := { top }
    d.find "/" = .ok ([],top) ∧ top.IsTree ∧ ∃ found fs, d.walk "/" = .ok found ∧ ofDisk "/" d = .ok fs ∧
      walkedFiles found = [("a/b.js",""),("a.js","")] ∧ fs.files.Perm [("/a/b.js",""),("/a.js","")] := by
  intro top d
  have hroot : d.find "/" = .ok ([],top) := find_top _
  have hname (s : String) (h : s ∈ ["a","a.js","b.js"]) : (RawText.ofText s).IsName := by
    revert s
    simp only [List.forall_mem_cons]
    exact ⟨⟨by decide,by decide,by decide⟩,⟨by decide,by decide,by decide⟩,⟨by decide,by decide,by decide⟩,
      List.forall_mem_nil _⟩
  have hfolder : (DiskNode.directory [("b.js",.file [])]).IsTree :=
    .directory (List.pairwise_singleton _ _) (List.forall_mem_singleton.2 (hname _ (by decide)))
      (List.forall_mem_singleton.2 (.file _))
  have ht : top.IsTree :=
    .directory (List.pairwise_pair.2 (by decide))
      (List.forall_mem_cons.2 ⟨hname _ (by decide),List.forall_mem_singleton.2 (hname _ (by decide))⟩)
      (List.forall_mem_cons.2 ⟨hfolder,List.forall_mem_singleton.2 (.file _)⟩)
  obtain ⟨found,fs,hwalk,hfs,-,hperm⟩ := files_of_ofDisk hroot ht
  have hfound : walkedFiles found = [("a/b.js",""),("a.js","")] := by
    rw [walk,hroot] at hwalk
    obtain rfl := Except.ok.inj hwalk
    decide +kernel
  refine ⟨hroot,ht,found,fs,hwalk,hfs,hfound,?_⟩
  rw [hfound] at hperm
  exact hperm.2 (by decide)

/-- Of two files that come to one path only one is kept. -/
theorem file_lost_at_backslash :
    let d : Disk := { top := .directory [("a",.directory [("b.js",.file [50])]),("a\\b.js",.file [49])] }
    ∃ found fs, d.walk "/" = .ok found ∧ ofDisk "/" d = .ok fs ∧
      walkedFiles found = [("a/b.js","2"),("a\\b.js","1")] ∧ fs.files = [("/a/b.js","1")] ∧
      ¬ fs.files.Perm ((walkedFiles found).map fun f => ("/" ++ f.1,f.2)) := by
  intro d
  have hwalk : d.walk "/" = .ok (walkBelow d.top) := by
    rw [walk,find_top]
    rfl
  have hfound : walkedFiles (walkBelow d.top) = [("a/b.js","2"),("a\\b.js","1")] := by decide +kernel
  have hfiles : (ofWalk (walkBelow d.top)).files = [("/a/b.js","1")] := by decide +kernel
  refine ⟨walkBelow d.top,ofWalk (walkBelow d.top),hwalk,by rw [ofDisk,hwalk],hfound,hfiles,fun hperm => ?_⟩
  have hlength := hperm.length_eq
  rw [hfound,hfiles] at hlength
  contradiction

end FileSet

end PreviewCompiler
