import PreviewCompiler.Proofs.Data.OrderedMap
import PreviewCompiler.Proofs.Files.Below

namespace PreviewCompiler

open Data PreviewCompiler.Path

namespace FileSet

variable {fs fs' : FileSet} {path content p q a : String} {e : Entry}

theorem get?_eq_some_iff (h : fs.IsSnapshot) : get? p fs = some e ↔ (p,e) ∈ fs := OrderedMap.find?_eq_some_iff h.ordered

theorem isCanonical_of_get? (h : fs.IsSnapshot) (he : get? p fs = some e) : IsCanonical p :=
  h.canonical _ ((get?_eq_some_iff h).1 he)

theorem isDirectory_iff : isDirectory p fs = true ↔ get? p fs = some .directory := by
  unfold isDirectory
  rcases get? p fs with _ | _ | _ <;> simp [Entry.isFile]

theorem isFile_eq_false_iff : isFile p fs = false ↔ get? p fs = none ∨ get? p fs = some .directory := by
  unfold isFile
  rcases get? p fs with _ | _ | _ <;> simp [Entry.isFile]

theorem isFile_iff : isFile p fs = true ↔ ∃ content, get? p fs = some (.file content) := by
  unfold isFile
  rcases get? p fs with _ | _ | _ <;> simp [Entry.isFile]

private theorem find?_map_directory (q : String) (ps : List String) :
    OrderedMap.find? q (ps.map fun p => (p,Entry.directory)) = if q ∈ ps then some .directory else none := by
  induction ps with
  | nil => rfl
  | cons p ps ih =>
    by_cases h : q = p
    · simp [OrderedMap.find?,h]
    · simpa [OrderedMap.find?,h] using ih

theorem get?_insertParents (q path : String) (fs : FileSet) :
    get? q (insertParents path fs) = (get? q fs).or (if q ∈ ancestors path then some .directory else none) := by
  have hfold : insertParents path fs =
      ((ancestors path).map fun p => (p,Entry.directory)).foldl (fun m e => OrderedMap.insertNew e.1 e.2 m) fs := by
    rw [List.foldl_map]
    rfl
  rw [hfold,get?,OrderedMap.find?_foldl_insertNew,find?_map_directory]
  rfl

theorem get?_insertFile (q path content : String) (fs : FileSet) :
    get? q (insertFile path content fs) = if q = normalize path then some (.file content)
      else (get? q fs).or (if q ∈ ancestors (normalize path) then some .directory else none) := by
  have heq : insertFile path content fs =
      OrderedMap.insert (normalize path) (.file content) (insertParents (normalize path) fs) := rfl
  have hparents := get?_insertParents q (normalize path) fs
  rw [get?] at hparents
  rw [heq,get?]
  split
  · rename_i h
    rw [h,OrderedMap.find?_insert_self]
  · rename_i h
    rw [OrderedMap.find?_insert_of_ne h,hparents]

/-- A path and the directories around it, if it is not the root. -/
def lineage (path : String) : List String := if path = "/" then [] else path :: ancestors path

theorem get?_insertDirectory (q path : String) (fs : FileSet) :
    get? q (insertDirectory path fs) =
      (get? q fs).or (if q ∈ lineage (normalize path) then some .directory else none) := by
  have hparents := get?_insertParents q (normalize path) fs
  rw [get?] at hparents
  simp only [insertDirectory,lineage]
  split
  · simp
  · rw [get?,OrderedMap.find?_insertNew,hparents,Option.or_assoc]
    by_cases h : q = normalize path
    · have hself : normalize path ∉ ancestors (normalize path) := fun hm => ne_of_mem_ancestors hm rfl
      simp [OrderedMap.find?,h,hself]
    · simp [OrderedMap.find?,h]

private theorem find?_filter_keys {α : Type} (k : String) (keep : String → Bool) (m : OrderedMap String α) :
    OrderedMap.find? k (m.filter fun e => keep e.1) = if keep k then OrderedMap.find? k m else none := by
  induction m with
  | nil => exact (ite_self _).symm
  | cons e m ih =>
    by_cases hk : k = e.1
    · cases he : keep e.1 <;> simp_all [OrderedMap.find?]
    · cases he : keep e.1 <;> simp_all [OrderedMap.find?]

/-- A file is removed alone, a directory with what is below it. -/
theorem get?_of_remove (h : remove path fs = some (e,fs')) (q : String) :
    get? (normalize path) fs = some e ∧ get? q fs' =
      if q = normalize path ∨ e.isFile = false ∧ isBelow (normalize path) q = true then none else get? q fs := by
  obtain ⟨e',he,heq⟩ := Option.map_eq_some_iff.1 h
  obtain ⟨rfl,rfl⟩ := Prod.mk.inj heq
  refine ⟨he,?_⟩
  have herase : OrderedMap.find? q (OrderedMap.erase (normalize path) fs) =
      if q = normalize path then none else get? q fs := by
    split
    · rename_i hq
      rw [hq,OrderedMap.find?_erase_self]
    · rename_i hq
      exact OrderedMap.find?_erase_of_ne hq fs
  split
  · rename_i hfile
    rw [get?,herase]
    simp [hfile]
  · rename_i hfile
    rw [get?,find?_filter_keys q fun p => !isBelow (normalize path) p,herase]
    cases hbelow : isBelow (normalize path) q <;> simp [hfile]

/-- Is nothing at the root, and whatever has entries below it a directory? -/
structure IsTree (fs : FileSet) : Prop extends IsSnapshot fs where
  rootless : ∀ e ∈ fs, e.1 ≠ "/"
  above : ∀ e ∈ fs, ∀ a ∈ ancestors e.1, isDirectory a fs = true

theorem isTree_empty : IsTree [] where
  toIsSnapshot := isSnapshot_empty
  rootless _ he := absurd he List.not_mem_nil
  above _ he := absurd he List.not_mem_nil

theorem isTree_iff : fs.IsTree ↔ fs.IsSnapshot ∧ get? "/" fs = none ∧
    ∀ p, get? p fs ≠ none → ∀ a ∈ ancestors p, get? a fs = some .directory := by
  simp only [← isDirectory_iff]
  constructor
  · intro h
    refine ⟨h.toIsSnapshot,Option.eq_none_iff_forall_ne_some.2 fun e he => ?_,fun p hp => ?_⟩
    · exact h.rootless ("/",e) ((get?_eq_some_iff h.toIsSnapshot).1 he) rfl
    · obtain ⟨e,he⟩ := Option.ne_none_iff_exists'.1 hp
      exact h.above (p,e) ((get?_eq_some_iff h.toIsSnapshot).1 he)
  · rintro ⟨hs,hroot,habove⟩
    refine ⟨hs,?_,fun e he => habove e.1 ?_⟩
    · rintro ⟨p,e⟩ he rfl
      rw [(get?_eq_some_iff hs).2 he] at hroot
      contradiction
    · rw [(get?_eq_some_iff hs).2 he]
      exact Option.some_ne_none _

/-- Is an entry at the root, or below a file? -/
def IsBroken (fs : FileSet) : Prop :=
  get? "/" fs ≠ none ∨ ∃ p a, get? p fs ≠ none ∧ a ∈ ancestors p ∧ isFile a fs = true

theorem IsBroken.not_isTree (h : fs.IsBroken) : ¬ fs.IsTree := by
  intro ht
  obtain ⟨-,hroot,habove⟩ := isTree_iff.1 ht
  rcases h with h | ⟨p,a,hp,ha,hfile⟩
  · exact h hroot
  · obtain ⟨content,hcontent⟩ := isFile_iff.1 hfile
    exact Entry.noConfusion (Option.some.inj (hcontent.symm.trans (habove p hp a ha)))

/-- A change of a snapshot. -/
inductive Change where
  | file (path content : String)
  | directory (path : String)
  | removal (path : String)
  deriving DecidableEq, Repr

namespace Change

/-- The snapshot after a change; removing what is not there changes nothing. -/
def apply : Change → FileSet → FileSet
  | file path content, fs => insertFile path content fs
  | directory path, fs => insertDirectory path fs
  | removal path, fs => ((remove path fs).map (·.2)).getD fs

/-- Does a change put no file in the place of the root or of a directory with entries, and nothing below a file? -/
def Fits : Change → FileSet → Prop
  | file path _, fs => normalize path ≠ "/" ∧ (∀ a ∈ ancestors (normalize path), isFile a fs = false) ∧
      ∀ e ∈ fs, isBelow (normalize path) e.1 = false
  | directory path, fs => ∀ a ∈ ancestors (normalize path), isFile a fs = false
  | removal _, _ => True

/-- The snapshot after some changes. -/
def run (cs : List Change) (fs : FileSet) : FileSet := cs.foldl (fun fs c => c.apply fs) fs

theorem isSnapshot_apply (h : fs.IsSnapshot) (c : Change) : (c.apply fs).IsSnapshot := by
  cases c with
  | file path content => exact isSnapshot_insertFile h path content
  | directory path => exact isSnapshot_insertDirectory h path
  | removal path =>
    cases hr : remove path fs with
    | none =>
      rw [apply,hr]
      exact h
    | some result =>
      rw [apply,hr]
      exact isSnapshot_of_remove h hr

theorem isSnapshot_run (h : fs.IsSnapshot) (cs : List Change) : (run cs fs).IsSnapshot :=
  List.foldlRecOn (motive := IsSnapshot) cs _ h fun _ hm c _ => isSnapshot_apply hm c

end Change

theorem isTree_insertFile (h : fs.IsTree) (hfits : (Change.file path content).Fits fs) :
    (insertFile path content fs).IsTree := by
  obtain ⟨hs,hroot,habove⟩ := isTree_iff.1 h
  obtain ⟨hne,hfree,hbelow⟩ := hfits
  have hp := isCanonical_normalize path
  have hnew : ∀ a ∈ ancestors (normalize path), get? a (insertFile path content fs) = some .directory := by
    intro a ha
    rw [get?_insertFile,if_neg (ne_of_mem_ancestors ha),if_pos ha]
    rcases isFile_eq_false_iff.1 (hfree a ha) with hget | hget <;> rw [hget] <;> rfl
  refine isTree_iff.2 ⟨isSnapshot_insertFile hs path content,?_,fun q hq a ha => ?_⟩
  · rw [get?_insertFile,if_neg (Ne.symm hne),hroot,if_neg (root_not_mem_ancestors _)]
    rfl
  · rw [get?_insertFile] at hq
    split at hq
    · rename_i heq
      exact hnew a (heq ▸ ha)
    · cases hold : get? q fs with
      | some e =>
        have hmem := (get?_eq_some_iff hs).1 hold
        have hdir := habove q (by simp [hold]) a ha
        have hane : a ≠ normalize path := by
          rintro rfl
          exact absurd ((isBelow_iff hp (hs.canonical _ hmem)).2 ha) (Bool.eq_false_iff.1 (hbelow _ hmem))
        rw [get?_insertFile,if_neg hane,hdir]
        rfl
      | none =>
        rw [hold,Option.none_or] at hq
        split at hq
        · rename_i hanc
          exact hnew a (mem_ancestors_trans ha hanc)
        · exact absurd rfl hq

theorem isTree_insertDirectory (h : fs.IsTree) (hfits : (Change.directory path).Fits fs) :
    (insertDirectory path fs).IsTree := by
  obtain ⟨hs,hroot,habove⟩ := isTree_iff.1 h
  refine isTree_iff.2 ⟨isSnapshot_insertDirectory hs path,?_,fun q hq a ha => ?_⟩
  · rw [get?_insertDirectory,hroot,if_neg]
    · rfl
    · unfold lineage
      split
      · exact List.not_mem_nil
      · rename_i hne
        exact fun hm => (List.mem_cons.1 hm).elim (fun heq => hne heq.symm) (root_not_mem_ancestors _)
  · rw [get?_insertDirectory] at hq ⊢
    cases hold : get? q fs with
    | some e =>
      rw [habove q (by simp [hold]) a ha]
      rfl
    | none =>
      rw [hold,Option.none_or] at hq
      split at hq
      · rename_i hlineage
        unfold lineage at hlineage ⊢
        split at hlineage
        · contradiction
        · rename_i hne
          have hanc : a ∈ ancestors (normalize path) := by
            rcases List.mem_cons.1 hlineage with rfl | hq'
            · exact ha
            · exact mem_ancestors_trans ha hq'
          rw [if_neg hne,if_pos (List.mem_cons_of_mem _ hanc)]
          rcases isFile_eq_false_iff.1 (hfits a hanc) with hget | hget <;> rw [hget] <;> rfl
      · exact absurd rfl hq

theorem isTree_of_remove (h : fs.IsTree) (hr : remove path fs = some (e,fs')) : fs'.IsTree := by
  obtain ⟨hs,hroot,habove⟩ := isTree_iff.1 h
  have hp := isCanonical_normalize path
  have hget := fun q => (get?_of_remove hr q).2
  obtain ⟨he,-⟩ := get?_of_remove hr path
  refine isTree_iff.2 ⟨isSnapshot_of_remove hs hr,?_,fun q hq a ha => ?_⟩
  · rw [hget,hroot,ite_self]
  · rw [hget] at hq ⊢
    split at hq
    · contradiction
    · rename_i hkept
      obtain ⟨e',he'⟩ := Option.ne_none_iff_exists'.1 hq
      have hcanonical := isCanonical_of_get? hs he'
      have haround : normalize path ∉ ancestors q := fun hanc => by
        have hdir := habove q hq _ hanc
        obtain rfl := Option.some.inj (he.symm.trans hdir)
        exact hkept (.inr ⟨rfl,(isBelow_iff hp hcanonical).2 hanc⟩)
      rw [if_neg,habove q hq a ha]
      rintro (rfl | ⟨-,hbelow⟩)
      · exact haround ha
      · exact haround (mem_ancestors_trans ((isBelow_iff hp (isCanonical_of_mem_ancestors ha)).1 hbelow) ha)

/-- What does not fit breaks the tree. -/
theorem Change.isBroken_apply_of_not_fits (hs : fs.IsSnapshot) {c : Change} (h : ¬ c.Fits fs) :
    (c.apply fs).IsBroken := by
  cases c with
  | removal path => exact absurd trivial h
  | file path content =>
    have hself : get? (normalize path) (insertFile path content fs) = some (.file content) := by
      rw [get?_insertFile,if_pos rfl]
    simp only [Fits,not_and_or,not_forall,exists_prop,ne_eq,not_not,Bool.not_eq_false] at h
    rcases h with hroot | ⟨a,ha,hfile⟩ | ⟨e,he,hbelow⟩
    · refine .inl ?_
      rw [← hroot]
      exact fun hnone => Option.some_ne_none _ (hself.symm.trans hnone)
    · obtain ⟨content',hcontent⟩ := isFile_iff.1 hfile
      refine .inr ⟨_,a,fun hnone => Option.some_ne_none _ (hself.symm.trans hnone),ha,isFile_iff.2 ⟨content',?_⟩⟩
      rw [apply,get?_insertFile,if_neg (ne_of_mem_ancestors ha),hcontent]
      rfl
    · have hanc := (isBelow_iff (isCanonical_normalize path) (hs.canonical e he)).1 hbelow
      refine .inr ⟨e.1,_,?_,hanc,isFile_iff.2 ⟨content,hself⟩⟩
      rw [apply,get?_insertFile,if_neg (ne_of_mem_ancestors hanc).symm,(get?_eq_some_iff hs).2 he]
      exact Option.some_ne_none _
  | directory path =>
    simp only [Fits,not_forall,exists_prop,Bool.not_eq_false] at h
    obtain ⟨a,ha,hfile⟩ := h
    obtain ⟨content,hcontent⟩ := isFile_iff.1 hfile
    have hne : normalize path ≠ "/" := fun heq => by
      rw [heq,ancestors_root] at ha
      contradiction
    refine .inr ⟨normalize path,a,?_,ha,isFile_iff.2 ⟨content,?_⟩⟩
    · rw [apply,get?_insertDirectory,lineage,if_neg hne,if_pos List.mem_cons_self]
      cases get? (normalize path) fs <;> exact Option.some_ne_none _
    · rw [apply,get?_insertDirectory,hcontent]
      rfl

/-- A change keeps a tree one exactly if it fits. -/
theorem Change.isTree_apply_iff (h : fs.IsTree) (c : Change) : (c.apply fs).IsTree ↔ c.Fits fs := by
  refine ⟨fun ht => Classical.byContradiction fun hn => (isBroken_apply_of_not_fits h.toIsSnapshot hn).not_isTree ht,
    fun hfits => ?_⟩
  cases c with
  | file path content =>
    rw [apply]
    exact isTree_insertFile h hfits
  | directory path =>
    rw [apply]
    exact isTree_insertDirectory h hfits
  | removal path =>
    cases hr : remove path fs with
    | none =>
      rw [apply,hr]
      exact h
    | some result =>
      rw [apply,hr]
      exact isTree_of_remove h hr

end FileSet

end PreviewCompiler
