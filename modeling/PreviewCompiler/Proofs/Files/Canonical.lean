import Mathlib.Algebra.GroupWithZero.Nat
import PreviewCompiler.Proofs.Data.List
import PreviewCompiler.Proofs.Files.Snapshot

namespace PreviewCompiler

open Data

namespace Text

variable {α : Type} {isSeparator : α → Bool}

theorem splitAll_ne_nil (cs : List α) : splitAll isSeparator cs ≠ [] := by
  cases cs with
  | nil => exact List.cons_ne_nil _ _
  | cons c cs =>
    unfold splitAll
    split
    · exact List.cons_ne_nil _ _
    · split <;> exact List.cons_ne_nil _ _

theorem splitAll_cons_of_separator {c : α} (h : isSeparator c = true) (cs : List α) :
    splitAll isSeparator (c :: cs) = [] :: splitAll isSeparator cs := by
  rw [splitAll,if_pos h]

/-- What is in front of a separator is cut apart from what is behind it. -/
theorem splitAll_append_of_separator {c : α} (hc : isSeparator c = true) (front back : List α) :
    splitAll isSeparator (front ++ c :: back) = splitAll isSeparator front ++ splitAll isSeparator back := by
  induction front with
  | nil => exact splitAll_cons_of_separator hc back
  | cons d front ih =>
    rw [List.cons_append]
    by_cases hd : isSeparator d = true
    · rw [splitAll_cons_of_separator hd,splitAll_cons_of_separator hd,ih,List.cons_append]
    · obtain ⟨piece,pieces,hpieces⟩ := List.exists_cons_of_ne_nil
        (show splitAll isSeparator front ≠ [] from splitAll_ne_nil front)
      rw [splitAll,if_neg hd,splitAll,if_neg hd,ih,hpieces]
      rfl

theorem splitAll_of_no_separator {piece : List α} (hp : ∀ c ∈ piece, isSeparator c = false) :
    splitAll isSeparator piece = [piece] := by
  induction piece with
  | nil => rfl
  | cons d piece ih =>
    have hd := hp d List.mem_cons_self
    rw [splitAll,if_neg (by simp [hd]),ih fun c hc => hp c (List.mem_cons_of_mem _ hc)]

/-- The characters up to the next separator are one piece. -/
theorem splitAll_append_cons {piece : List α} {c : α} (hp : ∀ c ∈ piece, isSeparator c = false)
    (hc : isSeparator c = true) (cs : List α) :
    splitAll isSeparator (piece ++ c :: cs) = piece :: splitAll isSeparator cs := by
  rw [splitAll_append_of_separator hc,splitAll_of_no_separator hp]
  rfl

/-- A separator in front of each piece, and one piece more that is empty. -/
theorem splitAll_flatMap {x : α} (hx : isSeparator x = true) {pieces : List (List α)}
    (h : ∀ piece ∈ pieces, ∀ c ∈ piece, isSeparator c = false) :
    splitAll isSeparator (pieces.flatMap (x :: ·)) = [] :: pieces := by
  induction pieces with
  | nil => rfl
  | cons piece pieces ih =>
    obtain ⟨hpiece,hpieces⟩ := List.forall_mem_cons.1 h
    rw [List.flatMap_cons,List.cons_append,splitAll_cons_of_separator hx]
    cases pieces with
    | nil => rw [List.flatMap_nil,List.append_nil,splitAll_of_no_separator hpiece]
    | cons piece' pieces =>
      have ih := ih hpieces
      rw [List.flatMap_cons,List.cons_append,splitAll_cons_of_separator hx] at ih
      rw [List.flatMap_cons,List.cons_append,splitAll_append_cons hpiece hx,(List.cons.inj ih).2]

theorem not_isSeparator_of_mem_splitAll {cs piece : List α} (h : piece ∈ splitAll isSeparator cs) :
    ∀ c ∈ piece, isSeparator c = false := by
  induction cs generalizing piece with
  | nil =>
    obtain rfl := List.mem_singleton.1 h
    exact fun c hc => absurd hc List.not_mem_nil
  | cons d cs ih =>
    unfold splitAll at h
    split at h
    · rcases List.mem_cons.1 h with rfl | h
      · exact fun c hc => absurd hc List.not_mem_nil
      · exact ih h
    · rename_i hd
      split at h
      · rename_i first pieces heq
        rcases List.mem_cons.1 h with rfl | h
        · intro c hc
          rcases List.mem_cons.1 hc with rfl | hc
          · exact Bool.eq_false_iff.2 hd
          · exact ih (heq ▸ List.mem_cons_self) c hc
        · exact ih (heq ▸ List.mem_cons_of_mem _ h)
      · rename_i heq
        exact absurd heq (splitAll_ne_nil cs)

end Text

namespace Path

/-- Can a text stand between two slashes of a canonical path? -/
def IsSegment (s : List Char) : Prop := s ≠ [] ∧ s ≠ ['.'] ∧ s ≠ ['.','.'] ∧ ∀ c ∈ s, isSlash c = false

/-- Is a text the path through some segments? -/
def IsCanonical (path : String) : Prop := ∃ segs, (∀ s ∈ segs, IsSegment s) ∧ path.toList = ofSegments segs

variable {path : String} {segs taken : List (List Char)} {s : List Char}

theorem push_of_isSegment (h : IsSegment s) (taken : List (List Char)) : push taken s = s :: taken := by
  obtain ⟨hne,hdot,hdots,-⟩ := h
  rw [push,if_neg (not_or.2 ⟨hne,hdot⟩),if_neg hdots]

theorem isSegment_of_mem_push (ht : ∀ s ∈ taken, IsSegment s) {piece : List Char}
    (hp : ∀ c ∈ piece, isSlash c = false) : ∀ s ∈ push taken piece, IsSegment s := by
  intro s hs
  unfold push at hs
  split at hs
  · exact ht s hs
  · rename_i hkeep
    split at hs
    · exact ht s (List.mem_of_mem_drop hs)
    · rename_i hdots
      rcases List.mem_cons.1 hs with rfl | hs
      · exact ⟨fun h => hkeep (.inl h),fun h => hkeep (.inr h),hdots,hp⟩
      · exact ht s hs

theorem isSegment_of_mem_segments {cs : List Char} (h : s ∈ segments cs) : IsSegment s := by
  have hall : ∀ s ∈ (Text.splitAll isSlash cs).foldl push [], IsSegment s :=
    List.foldlRecOn (motive := fun taken => ∀ s ∈ taken, IsSegment s) _ push
      (fun _ hs => absurd hs List.not_mem_nil)
      fun taken ht piece hp => isSegment_of_mem_push ht (Text.not_isSeparator_of_mem_splitAll hp)
  exact hall s (List.mem_reverse.1 h)

/-- The slash in front does not matter. -/
theorem segments_cons_slash (cs : List Char) : segments ('/' :: cs) = segments cs := by
  rw [segments,Text.splitAll_cons_of_separator (by rfl),List.foldl_cons]
  rfl

theorem foldl_push (h : ∀ s ∈ segs, IsSegment s) (taken : List (List Char)) :
    segs.foldl push taken = segs.reverse ++ taken := by
  induction segs generalizing taken with
  | nil => rfl
  | cons s segs ih =>
    rw [List.foldl_cons,push_of_isSegment (h s List.mem_cons_self),
      ih fun t ht => h t (List.mem_cons_of_mem _ ht),List.reverse_cons,List.append_assoc]
    rfl

theorem segments_ofSegments (h : ∀ s ∈ segs, IsSegment s) : segments (ofSegments segs) = segs := by
  cases segs with
  | nil => rfl
  | cons s segs =>
    rw [segments,ofSegments,Text.splitAll_flatMap (by rfl) fun s hs => (h s hs).2.2.2,List.foldl_cons,
      show push [] [] = [] from rfl,foldl_push h,List.append_nil,List.reverse_reverse]
    exact fun h => by contradiction

theorem ofSegments_of_ne_nil (h : segs ≠ []) : ofSegments segs = segs.flatMap ('/' :: ·) := by
  cases segs with
  | nil => contradiction
  | cons s segs => rfl

theorem isCanonical_ofSegments (h : ∀ s ∈ segs, IsSegment s) : IsCanonical (String.ofList (ofSegments segs)) :=
  ⟨segs,h,String.toList_ofList⟩

theorem isCanonical_normalize (path : String) : IsCanonical (normalize path) :=
  isCanonical_ofSegments fun _ => isSegment_of_mem_segments

theorem IsCanonical.normalize_eq (h : IsCanonical path) : normalize path = path := by
  obtain ⟨segs,hsegs,hpath⟩ := h
  rw [normalize,hpath,segments_ofSegments hsegs,← hpath,String.ofList_toList]

theorem isCanonical_iff : IsCanonical path ↔ normalize path = path :=
  ⟨IsCanonical.normalize_eq,fun h => h ▸ isCanonical_normalize path⟩

theorem normalize_slash_append (path : String) : normalize ("/" ++ path) = normalize path := by
  have htext : ("/" ++ path).toList = '/' :: path.toList := by simp
  rw [normalize,normalize,htext,segments_cons_slash]

instance (path : String) : Decidable (IsCanonical path) := decidable_of_iff _ isCanonical_iff.symm

theorem isCanonical_of_mem_ancestors {p : String} (h : p ∈ ancestors path) : IsCanonical p := by
  obtain ⟨segs,hsegs,hp⟩ := List.mem_filterMap.1 h
  obtain ⟨n,-,rfl⟩ := List.mem_map.1 (List.mem_reverse.1 hsegs)
  cases htake : (segments path.toList).take n with
  | nil =>
    rw [htake] at hp
    contradiction
  | cons s segs =>
    rw [htake] at hp
    obtain rfl := Option.some.inj hp
    refine isCanonical_ofSegments fun t ht => ?_
    have hmem : t ∈ segments path.toList := List.mem_of_mem_take (htake ▸ ht)
    exact isSegment_of_mem_segments hmem

theorem IsCanonical.eq_cons (h : IsCanonical path) : ∃ cs, path.toList = '/' :: cs := by
  obtain ⟨segs,-,hpath⟩ := h
  cases segs with
  | nil => exact ⟨_,hpath⟩
  | cons s segs => exact ⟨_,hpath⟩

/-- A canonical path ends with a slash only if it is the root. -/
theorem IsCanonical.exists_end (h : IsCanonical path) (hne : path ≠ "/") :
    ∃ cs c, path.toList = cs ++ [c] ∧ isSlash c = false := by
  obtain ⟨segs,hsegs,hpath⟩ := h
  rcases List.eq_nil_or_concat' segs with rfl | ⟨front,s,rfl⟩
  · exact absurd (String.toList_inj.1 hpath) hne
  · obtain ⟨hs,-,-,hslash⟩ := hsegs s (List.mem_append_right _ List.mem_cons_self)
    obtain ⟨start,c,rfl⟩ := (List.eq_nil_or_concat' s).resolve_left hs
    refine ⟨front.flatMap ('/' :: ·) ++ '/' :: start,c,?_,hslash c (List.mem_append_right _ List.mem_cons_self)⟩
    rw [hpath,ofSegments_of_ne_nil (by simp),List.flatMap_append]
    simp

theorem IsCanonical.dropEndSlashes_eq (h : IsCanonical path) (hne : path ≠ "/") :
    Text.dropEndSlashes path = path := by
  obtain ⟨cs,c,hcs,hslash⟩ := h.exists_end hne
  have hc : (c == '/') = false := (Bool.or_eq_false_iff.1 hslash).1
  rw [Text.dropEndSlashes,Text.dropEndWhile,hcs,List.reverse_append]
  simp only [List.reverse_cons,List.reverse_nil,List.nil_append,List.singleton_append,List.dropWhile_cons,hc]
  simp only [Bool.false_eq_true,if_false,List.reverse_cons,List.reverse_reverse,← hcs,String.ofList_toList]

theorem IsCanonical.backslash_not_mem (h : IsCanonical path) : '\\' ∉ path.toList := by
  obtain ⟨segs,hsegs,hpath⟩ := h
  intro hmem
  rw [hpath] at hmem
  cases segs with
  | nil => exact absurd hmem (by decide)
  | cons s segs =>
    rw [ofSegments_of_ne_nil (List.cons_ne_nil s segs)] at hmem
    obtain ⟨s',hs',hc⟩ := List.mem_flatMap.1 hmem
    rcases List.mem_cons.1 hc with heq | hc
    · exact absurd heq (by decide)
    · exact absurd ((hsegs s' hs').2.2.2 _ hc) (by decide)

/-- The front of a canonical path up to a slash is a row of segments. -/
theorem IsCanonical.front_eq {front s : List Char} (h : IsCanonical path) (hpath : path.toList = front ++ '/' :: s)
    (hs : s ≠ []) (hslash : '/' ∉ s) :
    ∃ segs : List (List Char), (∀ s ∈ segs, IsSegment s) ∧ front = segs.flatMap ('/' :: ·) := by
  obtain ⟨segs,hsegs,heq⟩ := h
  rcases List.eq_nil_or_concat' segs with rfl | ⟨init,last,rfl⟩
  · have hroot : front ++ '/' :: s = [] ++ '/' :: [] := hpath.symm.trans heq
    exact absurd (append_cons_cancel_last hslash List.not_mem_nil hroot).2 hs
  · obtain ⟨-,-,-,hlast⟩ := hsegs last (List.mem_append_right _ List.mem_cons_self)
    rw [ofSegments_of_ne_nil (by simp),List.flatMap_append,List.flatMap_singleton] at heq
    refine ⟨init,fun t ht => hsegs t (List.mem_append_left _ ht),?_⟩
    exact (append_cons_cancel_last hslash (fun hm => absurd (hlast _ hm) (by decide)) (hpath.symm.trans heq)).1

theorem isCanonical_of_flatMap (h : ∀ s ∈ segs, IsSegment s) (hne : path ≠ "")
    (hpath : path.toList = segs.flatMap ('/' :: ·)) : IsCanonical path := by
  refine ⟨segs,h,?_⟩
  rw [hpath,ofSegments_of_ne_nil]
  rintro rfl
  exact hne (String.toList_inj.1 hpath)

/-- The length of the path through some segments. -/
def width (segs : List (List Char)) : Nat := (segs.map (·.length + 1)).sum

theorem width_push_le (taken : List (List Char)) (s : List Char) : width (push taken s) ≤ width (s :: taken) := by
  unfold push
  split
  · exact Nat.le_add_left _ _
  · split
    · cases taken with
      | nil => exact Nat.zero_le _
      | cons t taken =>
        simp only [List.drop_succ_cons,List.drop_zero,width,List.map_cons,List.sum_cons]
        omega
    · exact Nat.le_refl _

theorem width_foldl_push_le (pieces taken : List (List Char)) :
    width (pieces.foldl push taken) ≤ width pieces + width taken := by
  induction pieces generalizing taken with
  | nil => exact Nat.le_of_eq (Nat.zero_add _).symm
  | cons s pieces ih =>
    have hs := width_push_le taken s
    have hrest := ih (push taken s)
    simp only [width,List.map_cons,List.sum_cons,List.foldl_cons] at hs hrest ⊢
    omega

theorem width_splitAll (cs : List Char) : width (Text.splitAll isSlash cs) = cs.length + 1 := by
  induction cs with
  | nil => rfl
  | cons c cs ih =>
    unfold Text.splitAll
    split
    · simp only [width,List.map_cons,List.sum_cons,List.length_cons,List.length_nil] at ih ⊢
      omega
    · split
      · rename_i heq
        rw [heq] at ih
        simp only [width,List.map_cons,List.sum_cons,List.length_cons] at ih ⊢
        omega
      · rename_i heq
        exact absurd heq (Text.splitAll_ne_nil cs)

theorem length_flatMap_slash (segs : List (List Char)) : (segs.flatMap ('/' :: ·)).length = width segs := by
  rw [List.length_flatMap]
  rfl

/-- Normalizing an absolute path does not lengthen it. -/
theorem length_normalize_le {cs : List Char} (h : path.toList = '/' :: cs) :
    (normalize path).toList.length ≤ path.toList.length := by
  have hwidth : width (segments path.toList) ≤ path.toList.length := by
    rw [h,segments_cons_slash,segments,width,List.map_reverse,List.sum_reverse]
    exact Nat.le_trans (width_foldl_push_le _ _) (Nat.le_of_eq (width_splitAll cs))
  rw [normalize,String.toList_ofList]
  cases hsegs : segments path.toList with
  | nil =>
    rw [h]
    exact Nat.le_add_left 1 cs.length
  | cons s segs =>
    rw [ofSegments_of_ne_nil (by simp),length_flatMap_slash,← hsegs]
    exact hwidth

end Path

/-- Are the paths in ascending order, and canonical? -/
structure FileSet.IsSnapshot (fs : FileSet) : Prop where
  ordered : OrderedMap.IsOrdered fs
  canonical : ∀ e ∈ fs, Path.IsCanonical e.1

namespace FileSet

variable {fs fs' : FileSet}

theorem isSnapshot_empty : IsSnapshot [] := ⟨List.Pairwise.nil,fun _ he => absurd he List.not_mem_nil⟩

theorem isSnapshot_insertNew (h : fs.IsSnapshot) {path : String} (hp : Path.IsCanonical path) (e : Entry) :
    IsSnapshot (OrderedMap.insertNew path e fs) := by
  refine ⟨h.ordered.insertNew _ _,fun e' he' => ?_⟩
  rcases OrderedMap.mem_insertNew he' with rfl | he'
  · exact hp
  · exact h.canonical e' he'

theorem isSnapshot_insertParents (h : fs.IsSnapshot) (path : String) : IsSnapshot (insertParents path fs) :=
  List.foldlRecOn (motive := IsSnapshot) (Path.ancestors path) _ h
    fun _ hm _ hp => isSnapshot_insertNew hm (Path.isCanonical_of_mem_ancestors hp) _

theorem isSnapshot_insertFile (h : fs.IsSnapshot) (path content : String) :
    IsSnapshot (insertFile path content fs) := by
  refine ⟨isOrdered_insertFile h.ordered path content,fun e he => ?_⟩
  rcases OrderedMap.mem_insert he with rfl | he
  · exact Path.isCanonical_normalize path
  · exact (isSnapshot_insertParents h _).canonical e he

theorem isSnapshot_insertDirectory (h : fs.IsSnapshot) (path : String) :
    IsSnapshot (insertDirectory path fs) := by
  simp only [insertDirectory]
  split
  · exact h
  · exact isSnapshot_insertNew (isSnapshot_insertParents h _) (Path.isCanonical_normalize path) _

theorem isSnapshot_of_remove {path : String} {e : Entry} (h : fs.IsSnapshot)
    (hr : remove path fs = some (e,fs')) : fs'.IsSnapshot := by
  refine ⟨isOrdered_of_remove h.ordered hr,fun e' he' => h.canonical e' ?_⟩
  obtain ⟨e,-,heq⟩ := Option.map_eq_some_iff.1 hr
  obtain ⟨-,rfl⟩ := Prod.mk.inj heq
  split at he'
  · exact (OrderedMap.mem_erase.1 he').1
  · exact (OrderedMap.mem_erase.1 (List.mem_filter.1 he').1).1

theorem isSnapshot_ofFiles (files : List (String × String)) : IsSnapshot (ofFiles files) :=
  List.foldlRecOn (motive := IsSnapshot) files _ isSnapshot_empty
    fun _ hm f _ => isSnapshot_insertFile hm f.1 f.2

end FileSet

/-- An operation that succeeds leaves a snapshot. -/
theorem FileOperation.isSnapshot_run {fs fs' : FileSet} {op : FileOperation} (h : fs.IsSnapshot)
    (hr : op.run fs = .ok fs') : fs'.IsSnapshot :=
  run_induction (fun _ path content h => FileSet.isSnapshot_insertFile h path content)
    (fun _ path h => FileSet.isSnapshot_insertDirectory h path) (fun _ _ _ _ => FileSet.isSnapshot_of_remove) h hr

end PreviewCompiler
