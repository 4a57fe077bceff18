import PreviewCompiler.Proofs.Files.Canonical

namespace PreviewCompiler

namespace Text

variable {isSeparator : Char → Bool}

theorem splitAll_eq_splitOnP (cs : List Char) : splitAll isSeparator cs = cs.splitOnP isSeparator := by
  induction cs with
  | nil => rw [splitAll,List.splitOnP_nil]
  | cons c cs ih =>
    rw [splitAll,List.splitOnP_cons_eq_if_modifyHead,ih]
    obtain ⟨piece,pieces,hpieces⟩ := List.exists_cons_of_ne_nil (List.splitOnP_ne_nil isSeparator cs)
    rw [hpieces]
    rfl

/-- The pieces with a separator in front of each are the text with one in front. -/
theorem flatMap_splitAll (x : Char) (cs : List Char) : (splitAll (· == x) cs).flatMap (x :: ·) = x :: cs := by
  induction cs with
  | nil => rfl
  | cons c cs ih =>
    by_cases hc : c = x
    · subst hc
      rw [splitAll,if_pos (beq_self_eq_true c),List.flatMap_cons,ih]
      rfl
    · have hne : splitAll (· == x) cs ≠ [] := splitAll_ne_nil cs
      obtain ⟨piece,pieces,hpieces⟩ := List.exists_cons_of_ne_nil hne
      rw [hpieces,List.flatMap_cons,List.cons_append] at ih
      rw [splitAll,if_neg (by simp [hc]),hpieces,List.flatMap_cons,List.cons_append,List.cons_append,
        (List.cons.inj ih).2]

end Text

namespace Path

variable {path : String}

/-- What a canonical path looks like. -/
structure IsNormal (path : String) : Prop where
  rooted : path.toList.head? = some '/'
  segments : path ≠ "/" → ∀ s ∈ path.toList.tail.splitOn '/', s ≠ [] ∧ s ≠ ['.'] ∧ s ≠ ['.','.']
  no_backslash : '\\' ∉ path.toList
  no_end_slash : path ≠ "/" → path.toList.getLast? ≠ some '/'

/-- The segments of a canonical path are what stands between its slashes. -/
theorem IsCanonical.isSegment_of_mem_splitOn (h : IsCanonical path) (hne : path ≠ "/") {s : List Char}
    (hs : s ∈ path.toList.tail.splitOn '/') : IsSegment s := by
  obtain ⟨segs,hsegs,hpath⟩ := h
  have hsegs_ne : segs ≠ [] := by
    rintro rfl
    exact hne (String.toList_inj.1 hpath)
  have hslash : ∀ s ∈ segs, ∀ c ∈ s, (c == '/') = false := fun s hs c hc =>
    (Bool.or_eq_false_iff.1 ((hsegs s hs).2.2.2 c hc)).1
  have hsplit : path.toList.splitOn '/' = [] :: segs := by
    rw [List.splitOn_eq_splitOnP,← Text.splitAll_eq_splitOnP,hpath,ofSegments_of_ne_nil hsegs_ne,
      Text.splitAll_flatMap (by rfl) hslash]
  obtain ⟨cs,hcs⟩ := IsCanonical.eq_cons ⟨segs,hsegs,hpath⟩
  rw [hcs,List.splitOn_cons_eq_if_modifyHead,if_pos (by rfl)] at hsplit
  rw [hcs,List.tail_cons,(List.cons.inj hsplit).2] at hs
  exact hsegs s hs

theorem IsCanonical.isNormal (h : IsCanonical path) : IsNormal path where
  rooted := by
    obtain ⟨cs,hcs⟩ := h.eq_cons
    rw [hcs]
    rfl
  segments := fun hne s hs =>
    have hsegment := h.isSegment_of_mem_splitOn hne hs
    ⟨hsegment.1,hsegment.2.1,hsegment.2.2.1⟩
  no_backslash := h.backslash_not_mem
  no_end_slash := fun hne hend => by
    obtain ⟨cs,c,hcs,hslash⟩ := h.exists_end hne
    rw [hcs,List.getLast?_concat] at hend
    obtain rfl := Option.some.inj hend
    contradiction

theorem IsNormal.isCanonical (h : IsNormal path) : IsCanonical path := by
  by_cases hroot : path = "/"
  · subst hroot
    exact isCanonical_normalize "/"
  · obtain ⟨cs,hcs⟩ : ∃ cs, path.toList = '/' :: cs := List.head?_eq_some_iff.1 h.rooted
    have hsplit : path.toList.tail.splitOn '/' = Text.splitAll (· == '/') cs := by
      rw [hcs,Text.splitAll_eq_splitOnP]
      rfl
    have hpath : path.toList = (Text.splitAll (· == '/') cs).flatMap ('/' :: ·) := by
      rw [Text.flatMap_splitAll,hcs]
    refine isCanonical_of_flatMap (fun s hs => ?_) (fun hempty => ?_) hpath
    · obtain ⟨hne,hdot,hdots⟩ := h.segments hroot s (hsplit ▸ hs)
      refine ⟨hne,hdot,hdots,fun c hc => ?_⟩
      have hslash : (c == '/') = false := Text.not_isSeparator_of_mem_splitAll hs c hc
      have hback : c ≠ '\\' := by
        rintro rfl
        refine h.no_backslash ?_
        rw [hpath]
        exact List.mem_flatMap.2 ⟨s,hs,List.mem_cons_of_mem _ hc⟩
      exact Bool.or_eq_false_iff.2 ⟨hslash,beq_eq_false_iff_ne.2 hback⟩
    · rw [hempty] at hcs
      contradiction

/-- Normalizing leaves just the paths as they are that look canonical. -/
theorem normalize_eq_self_iff : normalize path = path ↔ IsNormal path :=
  ⟨fun h => (isCanonical_iff.2 h).isNormal,fun h => h.isCanonical.normalize_eq⟩

/-- What is behind a slash goes on from the segments that lead up to it. -/
theorem segments_append_slash (front back : List Char) :
    segments (front ++ '/' :: back) = ((Text.splitAll isSlash back).foldl push (segments front).reverse).reverse := by
  rw [segments,Text.splitAll_append_of_separator (by rfl),List.foldl_append,segments,List.reverse_reverse]

theorem segments_normalize (path : String) : segments (normalize path).toList = segments path.toList := by
  rw [normalize,String.toList_ofList,segments_ofSegments fun _ => isSegment_of_mem_segments]

/-- The first of two paths may be normalized before the second one is put behind it.  Dots that lead above the root are
gone from it already: whatever is behind goes on from the same segments. -/
theorem normalize_append_slash (p q : String) : normalize (p ++ "/" ++ q) = normalize (normalize p ++ "/" ++ q) := by
  have htext : ∀ p : String, (p ++ "/" ++ q).toList = p.toList ++ '/' :: q.toList := fun p => by simp
  rw [normalize,normalize,htext,htext,segments_append_slash,segments_append_slash,segments_normalize]

/-- Normalizing makes every text canonical and leaves just the canonical ones as they are, and what it makes of a path
does not depend on how the front of the path is written. -/
theorem normal_forms (p q : String) :
    IsNormal (normalize p) ∧ (normalize p = p ↔ IsNormal p) ∧
      normalize (p ++ "/" ++ q) = normalize (normalize p ++ "/" ++ q) :=
  ⟨(isCanonical_normalize p).isNormal,normalize_eq_self_iff,normalize_append_slash p q⟩

-- The dots at the start of the second path lead out of the first, so the second must not be normalized before.
example : normalize ("a/../../b" ++ "/" ++ "../../c") = "/c" ∧
    normalize ("a/../../b" ++ "/" ++ normalize "../../c") = "/b/c" := by decide +kernel

end Path

end PreviewCompiler
