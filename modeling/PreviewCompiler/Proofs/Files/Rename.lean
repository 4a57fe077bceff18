import Mathlib.Data.List.Nodup
import PreviewCompiler.Proofs.Files.Editing

namespace PreviewCompiler

open Data

namespace Path

variable {source target p q : String}

/-- Is a path that of `top` or below it? -/
def isWithin (top path : String) : Bool := (segmentsOf top).isPrefixOf (segmentsOf path)

/-- The path that is to `target` what `path` is to `source`. -/
def rebase (source target path : String) : String :=
  String.ofList (ofSegments (segmentsOf target ++ (segmentsOf path).drop (segmentsOf source).length))

theorem isWithin_iff : isWithin source p = true ↔ segmentsOf source <+: segmentsOf p := List.isPrefixOf_iff_prefix

theorem segmentsOf_rebase : segmentsOf (rebase source target p) =
    segmentsOf target ++ (segmentsOf p).drop (segmentsOf source).length := by
  refine segmentsOf_ofSegments fun s hs => ?_
  exact (List.mem_append.1 hs).elim isSegment_of_mem_segments fun hs =>
    isSegment_of_mem_segments (List.mem_of_mem_drop hs)

theorem isWithin_rebase : isWithin target (rebase source target p) = true := by
  rw [isWithin_iff,segmentsOf_rebase]
  exact List.prefix_append ..

theorem rebase_inj (hp : IsCanonical p) (hq : IsCanonical q) (hps : isWithin source p = true)
    (hqs : isWithin source q = true) (h : rebase source target p = rebase source target q) : p = q := by
  have hdrop := congrArg segmentsOf h
  rw [segmentsOf_rebase,segmentsOf_rebase,List.append_cancel_left_eq] at hdrop
  refine hp.eq_of_segments hq ?_
  rw [← List.prefix_iff_eq_append.1 (isWithin_iff.1 hps),← List.prefix_iff_eq_append.1 (isWithin_iff.1 hqs),hdrop]

theorem isWithin_iff_of_ne_root (hs : IsCanonical source) (hne : source ≠ "/") (hp : IsCanonical p) :
    isWithin source p = true ↔ p = source ∨ source ∈ ancestors p := by
  rw [isWithin_iff,mem_ancestors_iff hs]
  constructor
  · intro h
    rcases Nat.lt_or_ge (segmentsOf source).length (segmentsOf p).length with hlt | hge
    · exact .inr ⟨hne,h,hlt⟩
    · exact .inl (hp.eq_of_segments hs (h.eq_of_length_le hge).symm)
  · rintro (rfl | h)
    · exact List.prefix_rfl
    · exact h.2.1

private theorem segments_append_flatMap (ht : IsCanonical target) {segs : List (List Char)}
    (h : ∀ s ∈ segs, IsSegment s) :
    segments (target.toList ++ segs.flatMap ('/' :: ·)) = segmentsOf target ++ segs := by
  have hsegs : segments (segs.flatMap ('/' :: ·)) = segs := by
    cases segs with
    | nil => rfl
    | cons s segs => exact segments_ofSegments h
  by_cases hroot : segmentsOf target = []
  · rw [ht.toList_eq,hroot,ofSegments,List.cons_append,List.nil_append,segments_cons_slash,hsegs]
    rfl
  · have hall : ∀ s ∈ segmentsOf target ++ segs, IsSegment s := fun s hs =>
      (List.mem_append.1 hs).elim isSegment_of_mem_segments (h s)
    rw [ht.toList_eq,ofSegments_of_ne_nil hroot,← List.flatMap_append,
      ← ofSegments_of_ne_nil (List.append_ne_nil_of_left_ne_nil hroot _),segments_ofSegments hall]

/-- Moving the text of a path moves the path. -/
theorem normalize_movePath (hs : IsCanonical source) (ht : IsCanonical target) (hp : IsCanonical p)
    (h : isWithin source p = true) (hroot : source = "/" → p = "/") :
    normalize (FileOperation.movePath source target p) = rebase source target p := by
  have hdrop : p.toList.drop source.toList.length =
      ((segmentsOf p).drop (segmentsOf source).length).flatMap ('/' :: ·) := by
    by_cases hsource : source = "/"
    · rw [hroot hsource,hsource]
      rfl
    · have hne : segmentsOf source ≠ [] := mt hs.segments_eq_nil_iff.1 hsource
      obtain ⟨rest,hrest⟩ := isWithin_iff.1 h
      rw [hp.toList_eq,hs.toList_eq,← hrest,ofSegments_of_ne_nil hne,
        ofSegments_of_ne_nil (List.append_ne_nil_of_left_ne_nil hne _),List.flatMap_append,List.drop_left,List.drop_left]
  rw [normalize,FileOperation.movePath,String.toList_append,String.toList_ofList,hdrop,
    segments_append_flatMap ht fun s hs => isSegment_of_mem_segments (List.mem_of_mem_drop hs)]
  rfl

end Path

open PreviewCompiler.Path

namespace FileSet

variable {fs fs' : FileSet} {path content p q c source target : String}

theorem mem_files_iff (h : OrderedMap.IsOrdered fs) : (p,c) ∈ fs.files ↔ get? p fs = some (.file c) := by
  rw [get?,OrderedMap.find?_eq_some_iff h]
  constructor
  · intro hf
    obtain ⟨⟨p',e⟩,he,heq⟩ := List.mem_filterMap.1 hf
    cases e with
    | directory => contradiction
    | file content =>
      obtain ⟨rfl,rfl⟩ := Prod.mk.inj (Option.some.inj heq)
      exact he
  · exact fun he => List.mem_filterMap.2 ⟨_,he,rfl⟩

theorem nodup_paths_files (h : OrderedMap.IsOrdered fs) : (fs.files.map (·.1)).Nodup := (isOrdered_files h).nodup_keys

/-- Putting a file tells of no other file. -/
theorem file_insertFile_iff : get? q (insertFile path content fs) = some (.file c) ↔
    q = normalize path ∧ content = c ∨ q ≠ normalize path ∧ get? q fs = some (.file c) := by
  rw [get?_insertFile]
  split
  · rename_i h
    simp [h]
  · rename_i h
    rcases hget : get? q fs with _ | _ | _ <;> simp [h]

theorem file_insertDirectory_iff :
    get? q (insertDirectory path fs) = some (.file c) ↔ get? q fs = some (.file c) := by
  rw [get?_insertDirectory]
  rcases get? q fs with _ | _ | _ <;> simp

/-- The files after some entries have been put at other paths, no two at one path. -/
theorem file_foldl_insertMoved_iff {moved : List (String × Entry)}
    (h : moved.Pairwise fun e e' => normalize (FileOperation.movePath source target e.1) ≠
      normalize (FileOperation.movePath source target e'.1)) :
    get? q (moved.foldl (FileOperation.insertMoved source target) fs) = some (.file c) ↔
      (∃ p, (p,.file c) ∈ moved ∧ normalize (FileOperation.movePath source target p) = q) ∨
      get? q fs = some (.file c) ∧ ∀ p c', (p,.file c') ∈ moved →
        normalize (FileOperation.movePath source target p) ≠ q := by
  induction moved generalizing fs with
  | nil => simp
  | cons e moved ih =>
    obtain ⟨hne,hrest⟩ := List.pairwise_cons.1 h
    rw [List.foldl_cons,ih hrest]
    obtain ⟨p,content | _⟩ := e
    · simp only [FileOperation.insertMoved,file_insertFile_iff,List.mem_cons,Prod.mk.injEq,Entry.file.injEq]
      constructor
      · rintro (⟨p',hp',hq⟩ | ⟨⟨rfl,rfl⟩ | ⟨hq,hget⟩,hfree⟩)
        · exact .inl ⟨p',.inr hp',hq⟩
        · exact .inl ⟨p,.inl ⟨rfl,rfl⟩,rfl⟩
        · refine .inr ⟨hget,fun p' c' hp' => hp'.elim (fun heq => ?_) (hfree p' c')⟩
          rw [heq.1]
          exact hq.symm
      · rintro (⟨p',⟨rfl,rfl⟩ | hp',hq⟩ | ⟨hget,hfree⟩)
        · subst hq
          exact .inr ⟨.inl ⟨rfl,rfl⟩,fun p'' c'' hp'' heq => hne _ hp'' heq.symm⟩
        · exact .inl ⟨p',hp',hq⟩
        · exact .inr ⟨.inr ⟨(hfree p content (.inl ⟨rfl,rfl⟩)).symm,hget⟩,fun p' c' hp' => hfree p' c' (.inr hp')⟩
    · simp [FileOperation.insertMoved,file_insertDirectory_iff]

/-- Is whatever has entries below it a directory?  All entries are below one at the root. -/
structure IsShaped (fs : FileSet) : Prop extends IsSnapshot fs where
  above : ∀ e ∈ fs, ∀ a ∈ ancestors e.1, isDirectory a fs = true
  alone : ∀ e ∈ fs, e.1 = "/" → ∀ e' ∈ fs, e'.1 = "/"

theorem isShaped_iff : fs.IsShaped ↔ OrderedMap.IsOrdered fs ∧ (∀ e ∈ fs, normalize e.1 = e.1) ∧
    (∀ e ∈ fs, ∀ a ∈ ancestors e.1, isDirectory a fs = true) ∧ ∀ e ∈ fs, e.1 = "/" → ∀ e' ∈ fs, e'.1 = "/" := by
  constructor
  · exact fun h => ⟨h.ordered,fun e he => (h.canonical e he).normalize_eq,h.above,h.alone⟩
  · rintro ⟨hordered,hcanonical,habove,halone⟩
    exact ⟨⟨hordered,fun e he => isCanonical_iff.2 (hcanonical e he)⟩,habove,halone⟩

instance : Decidable fs.IsShaped := decidable_of_iff' _ isShaped_iff

theorem IsTree.isShaped (h : fs.IsTree) : fs.IsShaped where
  toIsSnapshot := h.toIsSnapshot
  above := h.above
  alone e he hroot := absurd hroot (h.rootless e he)

theorem IsShaped.directory_of_mem_ancestors (h : fs.IsShaped) {e : Entry} (he : get? p fs = some e)
    {a : String} (ha : a ∈ ancestors p) : get? a fs = some .directory :=
  isDirectory_iff.1 (h.above (p,e) ((get?_eq_some_iff h.toIsSnapshot).1 he) a ha)

/-- Where something is moved, an entry is at the path itself, and what is not there is below it. -/
theorem IsShaped.exists_source (h : fs.IsShaped) (hs : IsCanonical source)
    (hne : FileOperation.entriesAt source fs ≠ []) : (∃ e, get? source fs = some e) ∧
      ∀ e ∈ fs, isWithin source e.1 = true ↔ e.1 = source ∨ isBelow source e.1 = true := by
  obtain ⟨⟨p,e⟩,he⟩ := List.exists_mem_of_ne_nil _ hne
  obtain ⟨hmem,hat⟩ := List.mem_filter.1 he
  have hget := (get?_eq_some_iff h.toIsSnapshot).2 hmem
  rw [Bool.or_eq_true,beq_iff_eq,isBelow_iff hs (h.canonical _ hmem)] at hat
  constructor
  · rcases hat with rfl | hbelow
    · exact ⟨e,hget⟩
    · exact ⟨_,h.directory_of_mem_ancestors hget hbelow⟩
  · intro e' he'
    have hcanonical := h.canonical e' he'
    rw [isBelow_iff hs hcanonical]
    by_cases hroot : source = "/"
    · subst hroot
      obtain rfl := hat.resolve_right (root_not_mem_ancestors _)
      exact iff_of_true (isWithin_iff.2 List.nil_prefix) (.inl (h.alone _ hmem rfl e' he'))
    · exact isWithin_iff_of_ne_root hs hroot hcanonical

/-- The entries that are moved are those at the path or below it. -/
theorem IsShaped.mem_entriesAt_iff (h : fs.IsShaped) (hs : IsCanonical source)
    (hne : FileOperation.entriesAt source fs ≠ []) {e : Entry} :
    (p,e) ∈ FileOperation.entriesAt source fs ↔ get? p fs = some e ∧ isWithin source p = true := by
  rw [get?_eq_some_iff h.toIsSnapshot,FileOperation.entriesAt,List.mem_filter]
  refine and_congr_right fun hm => ?_
  rw [(h.exists_source hs hne).2 _ hm,Bool.or_eq_true,beq_iff_eq]

/-- The files that stay are those that are neither at the path nor below it. -/
theorem IsShaped.file_rest_iff (h : fs.IsShaped) (hs : IsCanonical source)
    (hne : FileOperation.entriesAt source fs ≠ []) :
    get? q ((Change.removal source).apply fs) = some (.file c) ↔
      get? q fs = some (.file c) ∧ isWithin source q = false := by
  obtain ⟨⟨e,he⟩,hwithin⟩ := h.exists_source hs hne
  have hremove : ∃ fs', remove source fs = some (e,fs') := by
    rw [remove,hs.normalize_eq,he]
    exact ⟨_,rfl⟩
  obtain ⟨fs',hremove⟩ := hremove
  obtain ⟨-,hget⟩ := get?_of_remove hremove q
  rw [hs.normalize_eq] at hget
  rw [Change.apply,hremove,Option.map_some,Option.getD_some,hget]
  cases hq : get? q fs with
  | none => simp
  | some e' =>
    have hmem := (get?_eq_some_iff h.toIsSnapshot).1 hq
    have hgone : (q = source ∨ e.isFile = false ∧ isBelow source q = true) ↔ isWithin source q = true := by
      rw [hwithin _ hmem]
      refine or_congr_right (and_iff_right_of_imp fun hbelow => ?_)
      have hdir := h.directory_of_mem_ancestors hq ((isBelow_iff hs (h.canonical _ hmem)).1 hbelow)
      obtain rfl := Option.some.inj (he.symm.trans hdir)
      rfl
    simp only [hgone]
    cases isWithin source q <;> simp

/-- What is moved gets the path that is to the new one what its path was to the old one. -/
theorem IsShaped.normalize_movePath_of_mem (h : fs.IsShaped) (hs : IsCanonical source) (ht : IsCanonical target)
    {e : Entry} (he : (p,e) ∈ FileOperation.entriesAt source fs) :
    normalize (FileOperation.movePath source target p) = rebase source target p := by
  have hne := List.ne_nil_of_mem he
  obtain ⟨hget,hwithin⟩ := (h.mem_entriesAt_iff hs hne).1 he
  have hmem := (get?_eq_some_iff h.toIsSnapshot).1 hget
  refine normalize_movePath hs ht (h.canonical _ hmem) hwithin fun hroot => ?_
  subst hroot
  refine (((h.exists_source hs hne).2 _ hmem).1 hwithin).resolve_right fun hbelow => ?_
  exact root_not_mem_ancestors _ ((isBelow_iff hs (h.canonical _ hmem)).1 hbelow)

/-- No two entries are moved to one path. -/
theorem IsShaped.pairwise_moved (h : fs.IsShaped) (hs : IsCanonical source) (ht : IsCanonical target) :
    (FileOperation.entriesAt source fs).Pairwise fun e e' =>
      normalize (FileOperation.movePath source target e.1) ≠ normalize (FileOperation.movePath source target e'.1) := by
  have hdistinct : (FileOperation.entriesAt source fs).Pairwise fun e e' => e.1 ≠ e'.1 :=
    List.pairwise_map.1 (h.ordered.filter _).nodup_keys
  refine hdistinct.imp_of_mem fun {e e'} he he' hne heq => ?_
  obtain ⟨hget,hwithin⟩ := (h.mem_entriesAt_iff hs (List.ne_nil_of_mem he)).1 he
  obtain ⟨hget',hwithin'⟩ := (h.mem_entriesAt_iff hs (List.ne_nil_of_mem he)).1 he'
  rw [h.normalize_movePath_of_mem hs ht he,h.normalize_movePath_of_mem hs ht he'] at heq
  exact hne (rebase_inj (isCanonical_of_get? h.toIsSnapshot hget) (isCanonical_of_get? h.toIsSnapshot hget')
    hwithin hwithin' heq)

end FileSet

namespace FileOperation

open FileSet

variable {fs fs' : FileSet} {source target q c : String}

theorem run_rename_eq_ok_iff : (rename source target).run fs = .ok fs' ↔
    get? (normalize target) fs = none ∧ entriesAt (normalize source) fs ≠ [] ∧
    (entriesAt (normalize source) fs).foldl (insertMoved (normalize source) (normalize target))
      ((Change.removal (normalize source)).apply fs) = fs' := by
  simp only [run]
  rw [Change.apply]
  cases get? (normalize target) fs with
  | some e => simp
  | none =>
    rw [Option.isSome_none,if_neg Bool.false_ne_true,and_iff_right rfl]
    split
    · rename_i hnil
      simp [hnil]
    · rename_i hne
      rw [and_iff_right (fun hnil => hne hnil)]
      exact ⟨Except.ok.inj,congrArg _⟩

/-- The files after a renaming: what was moved, and what was not and is not in the place of something moved. -/
theorem mem_files_of_rename_iff (h : fs.IsShaped) (hr : (rename source target).run fs = .ok fs') :
    (q,c) ∈ fs'.files ↔
      (∃ p, (p,c) ∈ fs.files ∧ isWithin (normalize source) p = true ∧
        rebase (normalize source) (normalize target) p = q) ∨
      (q,c) ∈ fs.files ∧ isWithin (normalize source) q = false ∧
        ∀ f ∈ fs.files, isWithin (normalize source) f.1 = true →
          rebase (normalize source) (normalize target) f.1 ≠ q := by
  rw [mem_files_iff (isOrdered_run h.ordered hr)]
  obtain ⟨-,hne,rfl⟩ := run_rename_eq_ok_iff.1 hr
  have hs := isCanonical_normalize source
  have ht := isCanonical_normalize target
  have hmem : ∀ {p c'}, (p,.file c') ∈ entriesAt (normalize source) fs ↔
      (p,c') ∈ fs.files ∧ isWithin (normalize source) p = true := fun {p c'} => by
    rw [mem_files_iff h.ordered,h.mem_entriesAt_iff hs hne]
  have hmoved : ∀ {p c'}, (p,.file c') ∈ entriesAt (normalize source) fs →
      normalize (movePath (normalize source) (normalize target) p) = rebase (normalize source) (normalize target) p :=
    fun he => h.normalize_movePath_of_mem hs ht he
  rw [file_foldl_insertMoved_iff (h.pairwise_moved hs ht),h.file_rest_iff hs hne,and_assoc,← mem_files_iff h.ordered]
  refine or_congr (exists_congr fun p => ?_) (and_congr_right fun _ => and_congr_right fun _ => ?_)
  · rw [← and_assoc,← hmem]
    exact and_congr_right fun he => by rw [hmoved he]
  · constructor
    · rintro hfree ⟨p,c'⟩ hf hwithin
      have he := hmem.2 ⟨hf,hwithin⟩
      rw [← hmoved he]
      exact hfree p c' he
    · intro hfree p c' he
      rw [hmoved he]
      exact hfree (p,c') (hmem.1 he).1 (hmem.1 he).2

/-- A file at the path that a renaming gives it. -/
def moveFile (source target : String) (f : String × String) : String × String :=
  if isWithin source f.1 then (rebase source target f.1,f.2) else f

theorem moveFile_snd (source target : String) (f : String × String) : (moveFile source target f).2 = f.2 := by
  unfold moveFile
  split <;> rfl

/-- Does no file that is moved get the path of one that is not? -/
def IsFree (source target : String) (files : List (String × String)) : Prop :=
  ∀ f ∈ files, ∀ f' ∈ files, isWithin source f.1 = true → isWithin source f'.1 = false → rebase source target f.1 ≠ f'.1

/-- Below a path other than the root that is not taken there is nothing. -/
theorem isFree_of_ne_root (h : fs.IsShaped) (hr : (rename source target).run fs = .ok fs')
    (hne : normalize target ≠ "/") : IsFree (normalize source) (normalize target) fs.files := by
  obtain ⟨hnone,-,-⟩ := run_rename_eq_ok_iff.1 hr
  rintro ⟨p,c⟩ hf ⟨q,c'⟩ hf' - - heq
  have hget := (mem_files_iff h.ordered).1 hf'
  have hwithin : isWithin (normalize target) q = true := by
    rw [← show rebase _ _ p = q from heq]
    exact isWithin_rebase
  have hq := isCanonical_of_get? h.toIsSnapshot hget
  rcases (isWithin_iff_of_ne_root (isCanonical_normalize target) hne hq).1 hwithin with rfl | hbelow
  · exact Option.some_ne_none _ (hget.symm.trans hnone)
  · exact Option.some_ne_none _ ((h.directory_of_mem_ancestors hget hbelow).symm.trans hnone)

/-- The moved paths tell the files of a snapshot apart exactly if no moved file gets the path of another one. -/
theorem nodup_moved_paths_iff (h : fs.IsSnapshot) :
    (fs.files.map fun f => (moveFile source target f).1).Nodup ↔ IsFree source target fs.files := by
  have hpaths := nodup_paths_files h.ordered
  have hcanonical : ∀ f ∈ fs.files, IsCanonical f.1 := fun f hf =>
    isCanonical_of_get? h ((mem_files_iff h.ordered).1 hf)
  constructor
  · intro hnodup f hf f' hf' hmoved hkept heq
    have hff' : f = f' := List.inj_on_of_nodup_map hnodup hf hf' (by simpa [moveFile,hmoved,hkept] using heq)
    rw [hff',hkept] at hmoved
    contradiction
  · intro hfree
    refine List.Nodup.map_on (fun f hf f' hf' heq => List.inj_on_of_nodup_map hpaths hf hf' ?_) (.of_map _ hpaths)
    cases hmoved : isWithin source f.1 <;> cases hmoved' : isWithin source f'.1 <;>
      simp only [moveFile,hmoved,hmoved',if_true,Bool.false_eq_true,if_false] at heq
    · exact heq
    · exact absurd heq.symm (hfree f' hf' f hf hmoved' hmoved)
    · exact absurd heq (hfree f hf f' hf' hmoved hmoved')
    · exact rebase_inj (hcanonical f hf) (hcanonical f' hf') hmoved hmoved' heq

/-- A renaming moves the files at the path and below it and loses none of them exactly if no moved file gets the path
of another one. -/
theorem files_perm_map_moveFile_iff (h : fs.IsShaped) (hr : (rename source target).run fs = .ok fs') :
    fs'.files.Perm (fs.files.map (moveFile (normalize source) (normalize target))) ↔
      IsFree (normalize source) (normalize target) fs.files := by
  have hordered := isOrdered_run h.ordered hr
  rw [← nodup_moved_paths_iff h.toIsSnapshot]
  constructor
  · intro hperm
    have hnodup := (hperm.map (·.1)).nodup_iff.1 (nodup_paths_files hordered)
    rwa [List.map_map] at hnodup
  · intro hnodup
    have hfree := (nodup_moved_paths_iff h.toIsSnapshot).1 hnodup
    have hmap : (fs.files.map (moveFile (normalize source) (normalize target))).Nodup := by
      refine List.Nodup.of_map (·.1) ?_
      rwa [List.map_map]
    refine (List.perm_ext_iff_of_nodup (.of_map _ (nodup_paths_files hordered)) hmap).2 ?_
    rintro ⟨q,c⟩
    rw [mem_files_of_rename_iff h hr,List.mem_map]
    constructor
    · rintro (⟨p,hf,hmoved,rfl⟩ | ⟨hf,hkept,-⟩)
      · exact ⟨(p,c),hf,if_pos hmoved⟩
      · exact ⟨(q,c),hf,if_neg (Bool.eq_false_iff.1 hkept)⟩
    · rintro ⟨⟨p,c'⟩,hf,heq⟩
      cases hmoved : isWithin (normalize source) p with
      | true =>
        obtain ⟨rfl,rfl⟩ := Prod.mk.inj ((if_pos hmoved).symm.trans heq)
        exact .inl ⟨p,hf,hmoved,rfl⟩
      | false =>
        obtain ⟨rfl,rfl⟩ := Prod.mk.inj ((if_neg (Bool.eq_false_iff.1 hmoved)).symm.trans heq)
        exact .inr ⟨hf,hmoved,fun f' hf' hmoved' => hfree f' hf' _ hf hmoved' hmoved⟩

end FileOperation

namespace MemoryFiles

open FileSet FileOperation

variable {m m' : MemoryFiles} {source target : String}

theorem run_of_apply {op : FileOperation} (h : m.apply op = .ok m') : op.run m.files = .ok m'.files := by
  unfold apply at h
  cases hr : op.run m.files with
  | error e =>
    rw [hr] at h
    contradiction
  | ok fs =>
    rw [hr] at h
    obtain rfl := Except.ok.inj h
    rfl

/-- After a renaming every file that was at the old path or below it is at the same place at or below the new one, with
its content, and the others are where they were, unless something moved got their place: no file is lost exactly if
none of them is in the way, and the root is the only new path at which one can be. -/
theorem files_of_rename (h : m.files.IsShaped) (hr : m.apply (.rename source target) = .ok m') :
    let old := normalize source
    let new := normalize target
    (∀ q c, (q,c) ∈ m'.files.files ↔
      (∃ p, (p,c) ∈ m.files.files ∧ isWithin old p = true ∧ rebase old new p = q) ∨
      (q,c) ∈ m.files.files ∧ isWithin old q = false ∧
        ∀ f ∈ m.files.files, isWithin old f.1 = true → rebase old new f.1 ≠ q) ∧
    (m'.files.files.Perm (m.files.files.map (moveFile old new)) ↔ IsFree old new m.files.files) ∧
    (IsFree old new m.files.files → (m'.files.files.map (·.2)).Perm (m.files.files.map (·.2))) ∧
    (new ≠ "/" → IsFree old new m.files.files) := by
  intro old new
  have hrun := run_of_apply hr
  have hperm := files_perm_map_moveFile_iff h hrun
  refine ⟨fun q c => mem_files_of_rename_iff h hrun,hperm,fun hfree => ?_,isFree_of_ne_root h hrun⟩
  have hcontents := (hperm.2 hfree).map (·.2)
  rw [List.map_map] at hcontents
  exact hcontents.trans (.of_eq (List.map_congr_left fun f _ => moveFile_snd old new f))

/-- A directory with another one inside moves to a new place, next to a file with a name that starts like its own. -/
theorem files_of_rename_of_nested :
    let m : MemoryFiles := { files := ofFiles [("/a/x","1"),("/a/b/y","2"),("/ab","3")] }
    let m' : MemoryFiles :=
      { files := ofFiles [("/ab","3"),("/c/d/b/y","2"),("/c/d/x","1")], version := 1 }
    m.files.IsShaped ∧ m.apply (.rename "/a" "c//d") = .ok m' ∧
    m'.files.files.Perm (m.files.files.map (moveFile "/a" "/c/d")) ∧
    (m'.files.files.map (·.2)).Perm (m.files.files.map (·.2)) := by
  intro m m'
  have hshaped : m.files.IsShaped := by decide +kernel
  have happly : m.apply (.rename "/a" "c//d") = .ok m' := by decide +kernel
  obtain ⟨-,hperm,hcontents,hfree⟩ := files_of_rename hshaped happly
  have hsource : normalize "/a" = "/a" := by decide +kernel
  have htarget : normalize "c//d" = "/c/d" := by decide +kernel
  rw [hsource,htarget] at hperm hcontents hfree
  have hne : "/c/d" ≠ "/" := by decide
  exact ⟨hshaped,happly,hperm.2 (hfree hne),hcontents (hfree hne)⟩

/-- A directory whose content is moved to the root takes the place of a file there, whose content is lost. -/
theorem file_lost_at_root :
    let m : MemoryFiles := { files := ofFiles [("/a/x","1"),("/x","2")] }
    m.files.IsShaped ∧ m.apply (.rename "/a" "/") = .ok { files := [("/x",.file "1")], version := 1 } ∧
    ¬ ∀ (m m' : MemoryFiles) (source target : String), m.files.IsShaped → m.apply (.rename source target) = .ok m' →
      m'.files.files.Perm (m.files.files.map (moveFile (normalize source) (normalize target))) ∧
      m'.files.files.length = m.files.files.length := by
  intro m
  have hshaped : m.files.IsShaped := by decide +kernel
  have happly : m.apply (.rename "/a" "/") = .ok { files := [("/x",.file "1")], version := 1 } := by decide +kernel
  exact ⟨hshaped,happly,fun h => absurd (h m _ _ _ hshaped happly).2 (by decide +kernel)⟩

end MemoryFiles

end PreviewCompiler
