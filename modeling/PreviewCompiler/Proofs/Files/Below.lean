import PreviewCompiler.Proofs.Files.Canonical

namespace PreviewCompiler.Path

open Data

variable {a b p q : String} {segs segs' : List (List Char)}

/-- The segments of a path that is given as a text. -/
abbrev segmentsOf (p : String) : List (List Char) := segments p.toList

theorem IsCanonical.toList_eq (h : IsCanonical p) : p.toList = ofSegments (segmentsOf p) := by
  obtain ⟨segs,hsegs,hp⟩ := h
  rw [segmentsOf,hp,segments_ofSegments hsegs]

theorem IsCanonical.eq_of_segments (hp : IsCanonical p) (hq : IsCanonical q) (h : segmentsOf p = segmentsOf q) :
    p = q := by
  rw [← String.toList_inj,hp.toList_eq,hq.toList_eq,h]

theorem isCanonical_root : IsCanonical "/" := ⟨[],fun _ hs => absurd hs List.not_mem_nil,rfl⟩

theorem IsCanonical.segments_eq_nil_iff (hp : IsCanonical p) : segmentsOf p = [] ↔ p = "/" := by
  refine ⟨fun h => hp.eq_of_segments isCanonical_root (h.trans rfl),?_⟩
  rintro rfl
  rfl

theorem segmentsOf_ofSegments (h : ∀ s ∈ segs, IsSegment s) : segmentsOf (String.ofList (ofSegments segs)) = segs := by
  rw [segmentsOf,String.toList_ofList,segments_ofSegments h]

theorem mem_ancestors : a ∈ ancestors p ↔
    ∃ n < (segmentsOf p).length, n ≠ 0 ∧ a = String.ofList (ofSegments ((segmentsOf p).take n)) := by
  simp only [ancestors,List.mem_filterMap,List.mem_reverse,List.mem_map,List.mem_range]
  constructor
  · rintro ⟨_,⟨n,hn,rfl⟩,h⟩
    refine ⟨n,hn,?_⟩
    split at h
    · contradiction
    · rename_i s hs
      refine ⟨?_,(Option.some.inj h).symm⟩
      rintro rfl
      exact hs rfl
  · rintro ⟨n,hn,hpos,rfl⟩
    refine ⟨_,⟨n,hn,rfl⟩,?_⟩
    split
    · rename_i hnil
      rcases List.take_eq_nil_iff.1 hnil with h | h
      · exact absurd h hpos
      · exact absurd hn (by rw [segmentsOf,h]; exact Nat.not_lt_zero n)
    · rfl

/-- A directory around a path is a path through fewer segments. -/
theorem mem_ancestors_iff (ha : IsCanonical a) :
    a ∈ ancestors p ↔ a ≠ "/" ∧ segmentsOf a <+: segmentsOf p ∧ (segmentsOf a).length < (segmentsOf p).length := by
  have hsegs : ∀ n, ∀ s ∈ (segmentsOf p).take n, IsSegment s := fun n s hs =>
    isSegment_of_mem_segments (List.mem_of_mem_take hs)
  rw [mem_ancestors]
  constructor
  · rintro ⟨n,hn,hpos,rfl⟩
    rw [Ne,← ha.segments_eq_nil_iff,segmentsOf_ofSegments (hsegs n)]
    refine ⟨fun h => (List.take_eq_nil_iff.1 h).elim hpos fun h => ?_,List.take_prefix ..,?_⟩
    · rw [h] at hn
      exact Nat.not_lt_zero n hn
    · rw [List.length_take]
      omega
  · rintro ⟨hne,hfront,hlt⟩
    refine ⟨_,hlt,?_,ha.eq_of_segments (isCanonical_ofSegments (hsegs _)) ?_⟩
    · exact fun h => hne (ha.segments_eq_nil_iff.1 (List.eq_nil_of_length_eq_zero h))
    · rw [segmentsOf_ofSegments (hsegs _),← List.prefix_iff_eq_take.1 hfront]

theorem ne_of_mem_ancestors (h : a ∈ ancestors p) : a ≠ p := by
  rintro rfl
  exact Nat.lt_irrefl _ ((mem_ancestors_iff (isCanonical_of_mem_ancestors h)).1 h).2.2

theorem root_not_mem_ancestors (p : String) : "/" ∉ ancestors p := fun h =>
  ((mem_ancestors_iff isCanonical_root).1 h).1 rfl

theorem ancestors_root : ancestors "/" = [] := rfl

/-- What is around a directory around a path is around the path. -/
theorem mem_ancestors_trans (h : a ∈ ancestors b) (h' : b ∈ ancestors p) : a ∈ ancestors p := by
  have ha := isCanonical_of_mem_ancestors h
  obtain ⟨hne,hab,hlt⟩ := (mem_ancestors_iff ha).1 h
  obtain ⟨-,hbp,hlt'⟩ := (mem_ancestors_iff (isCanonical_of_mem_ancestors h')).1 h'
  exact (mem_ancestors_iff ha).2 ⟨hne,hab.trans hbp,Nat.lt_trans hlt hlt'⟩

/-- A path and a slash stand in front of the paths through more segments. -/
private theorem flatMap_slash_prefix_iff (h : ∀ s ∈ segs, IsSegment s) (h' : ∀ s ∈ segs', IsSegment s) :
    segs.flatMap ('/' :: ·) ++ ['/'] <+: segs'.flatMap ('/' :: ·) ↔ segs <+: segs' ∧ segs.length < segs'.length := by
  induction segs generalizing segs' with
  | nil => cases segs' <;> simp
  | cons s segs ih =>
    cases segs' with
    | nil => simp
    | cons s' segs' =>
      obtain ⟨hs,hsegs⟩ := List.forall_mem_cons.1 h
      obtain ⟨hs',hsegs'⟩ := List.forall_mem_cons.1 h'
      have hslash : ∀ {s : List Char}, IsSegment s → '/' ∉ s := fun hs hm => absurd (hs.2.2.2 _ hm) (by decide)
      obtain ⟨x,hx⟩ : ∃ x, segs.flatMap ('/' :: ·) ++ ['/'] = '/' :: x := by
        cases segs <;> exact ⟨_,rfl⟩
      rw [List.flatMap_cons,List.flatMap_cons,List.append_assoc,List.cons_append,List.cons_append,
        List.cons_prefix_cons,and_iff_right rfl,List.cons_prefix_cons,List.length_cons,List.length_cons,
        Nat.succ_lt_succ_iff,and_assoc,← ih hsegs hsegs']
      constructor
      · rintro ⟨rest,hrest⟩
        rw [hx,List.append_assoc,List.cons_append] at hrest
        cases segs' with
        | nil =>
          rw [List.flatMap_nil,List.append_nil] at hrest
          exact absurd (hrest ▸ List.mem_append_right _ List.mem_cons_self) (hslash hs')
        | cons t segs' =>
          rw [List.flatMap_cons,List.cons_append] at hrest ⊢
          obtain ⟨rfl,heq⟩ := append_cons_cancel (hslash hs) (hslash hs') hrest
          refine ⟨rfl,rest,?_⟩
          rw [hx,List.cons_append,heq]
      · rintro ⟨rfl,hfront⟩
        exact (List.prefix_append_right_inj s).2 hfront

/-- A canonical path is below the directories around it. -/
theorem isBelow_iff (ha : IsCanonical a) (hp : IsCanonical p) : FileSet.isBelow a p = true ↔ a ∈ ancestors p := by
  have hsegments : ∀ {q : String}, ∀ s ∈ segmentsOf q, IsSegment s := fun _ => isSegment_of_mem_segments
  rw [FileSet.isBelow,List.isPrefixOf_iff_prefix,ha.toList_eq,hp.toList_eq,mem_ancestors_iff ha]
  by_cases hp' : segmentsOf p = []
  · rw [hp',ofSegments]
    refine iff_of_false (fun h => ?_) fun h => Nat.not_lt_zero _ h.2.2
    have hle := h.length_le
    rw [← ha.toList_eq] at hle
    obtain ⟨cs,hcs⟩ := ha.eq_cons
    rw [hcs] at hle
    simp at hle
  · rw [ofSegments_of_ne_nil hp']
    by_cases ha' : segmentsOf a = []
    · rw [ha',ofSegments]
      refine iff_of_false (fun h => ?_) fun h => h.1 (ha.segments_eq_nil_iff.1 ha')
      obtain ⟨s,segs,hcons⟩ := List.exists_cons_of_ne_nil hp'
      obtain ⟨hne,-,-,hslash⟩ := hsegments s (hcons ▸ List.mem_cons_self)
      rw [hcons,List.flatMap_cons,List.cons_append] at h
      obtain ⟨c,s,rfl⟩ := List.exists_cons_of_ne_nil hne
      obtain ⟨-,h⟩ := List.cons_prefix_cons.1 h
      obtain ⟨rfl,-⟩ := List.cons_prefix_cons.1 h
      exact absurd (hslash '/' List.mem_cons_self) (by decide)
    · rw [ofSegments_of_ne_nil ha',flatMap_slash_prefix_iff hsegments hsegments,
        and_iff_right (mt ha.segments_eq_nil_iff.2 ha')]

end PreviewCompiler.Path
