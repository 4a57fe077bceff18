import Mathlib.Data.List.Sort
import Mathlib.Data.String.Basic
import PreviewCompiler.Preview.Session
import PreviewCompiler.Proofs.Files.Rename

namespace PreviewCompiler

open Data PreviewCompiler.Path

namespace FileSet

variable {files files' : List (String × String)} {p q c : String}

/-- The files of a list at the paths that they mean. -/
def placed (files : List (String × String)) : List (String × String) := files.map fun f => (Path.normalize f.1,f.2)

/-- Files in the order of their paths. -/
def byPath (files : List (String × String)) : List (String × String) := files.insertionSort fun f g => f.1 ≤ g.1

/-- Do no two files mean one path? -/
def Apart (files : List (String × String)) : Prop := files.Pairwise fun f g => Path.normalize f.1 ≠ Path.normalize g.1

instance : DecidablePred Apart := fun files =>
  have : DecidableRel fun f g : String × String => Path.normalize f.1 ≠ Path.normalize g.1 :=
    fun _ _ => instDecidableNot
  List.instDecidablePairwise files

theorem ofFiles_append_singleton (files : List (String × String)) (f : String × String) :
    ofFiles (files ++ [f]) = insertFile f.1 f.2 (ofFiles files) := by
  simp [ofFiles]

/-- At a path is the last file that has been put there, or else a directory if it is around a file. -/
theorem get?_ofFiles (q : String) (files : List (String × String)) : get? q (ofFiles files) =
    ((placed files).reverse.lookup q |>.map Entry.file).or
      (if ∃ f ∈ files, q ∈ ancestors (Path.normalize f.1) then some .directory else none) := by
  induction files using List.reverseRecOn with
  | nil => simp [ofFiles,placed,get?,OrderedMap.find?]
  | append_singleton files f ih =>
    have hplaced : (placed (files ++ [f])).reverse = (Path.normalize f.1,f.2) :: (placed files).reverse := by
      simp [placed]
    have hsplit : (∃ g ∈ files ++ [f], q ∈ ancestors (Path.normalize g.1)) ↔
        (∃ g ∈ files, q ∈ ancestors (Path.normalize g.1)) ∨ q ∈ ancestors (Path.normalize f.1) := by
      simp only [List.mem_append,List.mem_singleton,or_and_right,exists_or,exists_eq_left]
    rw [ofFiles_append_singleton,get?_insertFile,ih,hplaced,List.lookup_cons]
    by_cases hq : q = Path.normalize f.1
    · simp [hq]
    · have hne : (q == Path.normalize f.1) = false := beq_eq_false_iff_ne.2 hq
      rw [if_neg hq,hne,Option.or_assoc]
      simp only [hsplit]
      by_cases hg : ∃ g ∈ files, q ∈ ancestors (Path.normalize g.1)
      · rw [if_pos hg,if_pos (Or.inl hg),Option.some_or]
      · simp only [hg,if_false,false_or,Option.none_or]

theorem Apart.nodup_keys (h : Apart files) : ((placed files).map (·.1)).Nodup := by
  rw [placed,List.map_map]
  exact List.pairwise_map.2 h

theorem Apart.perm (h : Apart files) (hp : files.Perm files') : Apart files' :=
  (hp.pairwise_iff fun hne => hne.symm).1 h

theorem Apart.lookup_eq_some_iff (h : Apart files) :
    (placed files).reverse.lookup q = some c ↔ (q,c) ∈ placed files := by
  rw [List.lookup_eq_some_iff,← List.mem_reverse]
  constructor
  · rintro ⟨front,rest,heq,-⟩
    rw [heq]
    exact List.mem_append_right _ List.mem_cons_self
  · intro hm
    obtain ⟨front,rest,heq⟩ := List.mem_iff_append.1 hm
    refine ⟨front,rest,heq,fun f hf => ?_⟩
    have hkeys : ((front ++ (q,c) :: rest).map (·.1)).Nodup := by
      rw [← heq,List.map_reverse]
      exact List.nodup_reverse.2 h.nodup_keys
    rw [List.map_append,List.nodup_append] at hkeys
    have hne := hkeys.2.2 f.1 (List.mem_map_of_mem hf) q (by simp)
    exact bne_iff_ne.2 hne.symm

theorem mem_files_ofFiles_iff (h : Apart files) : (q,c) ∈ (ofFiles files).files ↔ (q,c) ∈ placed files := by
  rw [mem_files_iff (isOrdered_ofFiles files),get?_ofFiles,← h.lookup_eq_some_iff]
  cases (placed files).reverse.lookup q with
  | some c' => simp
  | none =>
    simp only [Option.map_none,Option.none_or,reduceCtorEq,iff_false]
    split <;> simp

theorem byPath_perm (files : List (String × String)) : (byPath files).Perm files := List.perm_insertionSort _ _

theorem pairwise_byPath (files : List (String × String)) : (byPath files).Pairwise fun f g => f.1 ≤ g.1 := by
  have htotal : Std.Total fun f g : String × String => f.1 ≤ g.1 := ⟨fun f g => le_total f.1 g.1⟩
  have htrans : IsTrans (String × String) fun f g => f.1 ≤ g.1 := ⟨fun _ _ _ => le_trans⟩
  exact List.pairwise_insertionSort _ files

/-- The files of a snapshot are those that were put there, in the order of their paths. -/
theorem files_ofFiles (h : Apart files) : (ofFiles files).files = byPath (placed files) := by
  have hfiles := isOrdered_files (isOrdered_ofFiles files)
  have hnodup : (ofFiles files).files.Nodup := List.Nodup.of_map Prod.fst hfiles.nodup_keys
  have hnodup' : (placed files).Nodup := List.Nodup.of_map Prod.fst h.nodup_keys
  have hperm : (ofFiles files).files.Perm (placed files) :=
    (List.perm_ext_iff_of_nodup hnodup hnodup').2 fun f => mem_files_ofFiles_iff h
  have hsort : (ofFiles files).files.Perm (byPath (placed files)) := hperm.trans (byPath_perm _).symm
  have hle : (ofFiles files).files.Pairwise fun f g => f.1 ≤ g.1 := hfiles.imp fun hlt => le_of_lt hlt
  refine hsort.eq_of_pairwise ?_ hle (pairwise_byPath _)
  intro f g hf hg hfg hgf
  have hm := hperm.subset hf
  have hm' := (byPath_perm _).subset hg
  exact List.inj_on_of_nodup_map h.nodup_keys hm hm' (le_antisymm hfg hgf)

/-- Files at different paths make one snapshot in any order. -/
theorem ofFiles_perm (h : Apart files) (hp : files.Perm files') : ofFiles files' = ofFiles files := by
  refine (isOrdered_ofFiles files').eq_of_find? (isOrdered_ofFiles files) fun q => ?_
  change get? q (ofFiles files') = get? q (ofFiles files)
  have hlookup : (placed files').reverse.lookup q = (placed files).reverse.lookup q := by
    ext c
    rw [(h.perm hp).lookup_eq_some_iff,h.lookup_eq_some_iff]
    exact (hp.map _).symm.mem_iff
  have hancestors : (∃ f ∈ files', q ∈ ancestors (Path.normalize f.1)) ↔
      ∃ f ∈ files, q ∈ ancestors (Path.normalize f.1) := by simp only [hp.mem_iff]
  rw [get?_ofFiles,get?_ofFiles,hlookup]
  simp only [hancestors]

/--
The order in which files at different paths are put into a snapshot counts for nothing that is made of it: it holds them
in the order of their paths, and so they are hashed and their stylesheets joined.
-/
theorem made_of_ofFiles (h : Apart files) (hp : files.Perm files') :
    ofFiles files' = ofFiles files ∧
    (ofFiles files').fingerprint = Fingerprint.ofTexts (byPath (placed files)) ∧
    (∀ redirects options, (ofFiles files').stage redirects options = (ofFiles files).stage redirects options) ∧
    (∀ options, (ofFiles files').styles options = (ofFiles files).styles options) ∧
    (ofFiles files').plainStyles =
      "\n".intercalate (((byPath (placed files)).filter fun f => isStylesheet f.1).map (·.2)) := by
  have heq := ofFiles_perm h hp
  rw [heq]
  refine ⟨rfl,?_,fun _ _ => rfl,fun _ => rfl,?_⟩
  · rw [fingerprint,files_ofFiles h]
  · rw [plainStyles,stylesheets,files_ofFiles h]

/-- One of the files is in the place of a directory around another one, and the stylesheets come in descending order. -/
theorem made_of_ofFiles_nested :
    let files := [("/theme/dark.css",".dark"),("theme","the themes"),("./base.css",".base")]
    Apart files ∧ (ofFiles files.reverse).plainStyles = ".base\n.dark" := by
  intro files
  have hapart : Apart files := by decide +kernel
  have hmade := made_of_ofFiles hapart (List.reverse_perm files).symm
  refine ⟨hapart,?_⟩
  rw [hmade.2.2.2.2]
  decide +kernel

end FileSet

end PreviewCompiler
