import PreviewCompiler.Proofs.Compile.PackageNames

namespace PreviewCompiler.PackageSpec

variable {p q : PackageSpec} {ps : List PackageSpec} {name : List Char} {version : Option (List Char)}

theorem toList_bare (p : PackageSpec) : p.bare.toList = p.name.toList ++ marked '/' (p.subpath.map String.toList) := by
  have htext := toList_text { p with version := none }
  rw [Option.map_none,marked,List.append_nil] at htext
  exact htext

theorem CanHead.isHead (h : CanHead name version) : IsHead name := by
  rcases h.segments with ⟨-,hslash,hat⟩ | ⟨scope,segment,hname,hscope,hsegment,-⟩
  · exact .inl ⟨hslash,hat⟩
  · exact .inr ⟨scope,segment,hname,hscope,hsegment⟩

theorem IsNamed.cutSubpath?_bare (h : p.IsNamed) :
    cutSubpath? p.bare.toList = some (p.name.toList,p.subpath.map String.toList) := by
  obtain ⟨specifier,-,hparse⟩ := h
  obtain ⟨-,subpath,-,hcan,-⟩ := parse?_eq_some_iff_cut.1 hparse
  exact cutSubpath?_eq_some_iff.2 ⟨toList_bare p,hcan.isHead⟩

/-- Packages that are called alike differ in their versions alone. -/
theorem IsNamed.eq_of_bare (hp : p.IsNamed) (hq : q.IsNamed) (h : q.bare = p.bare) :
    q = { p with version := q.version } := by
  have hcut := hq.cutSubpath?_bare
  rw [h,hp.cutSubpath?_bare] at hcut
  obtain ⟨hname,hsubpath⟩ := Prod.mk.inj (Option.some.inj hcut)
  obtain ⟨name,version,subpath⟩ := q
  obtain rfl : p.name = name := String.toList_inj.1 hname
  obtain rfl : p.subpath = subpath := Option.map_injective (fun _ _ => String.toList_inj.1) hsubpath
  rfl

theorem sortKey_injective : Function.Injective sortKey := by
  have hpart : Function.Injective fun part : Option String => (part.map ("1" ++ ·)).getD "" := by
    have hne : ∀ s : String, "1" ++ s ≠ "" := fun s h => by simp at h
    rintro (_ | s) (_ | s') h
    · rfl
    · exact absurd h.symm (hne s')
    · exact absurd h (hne s)
    · exact congrArg some (String.append_right_inj "1" |>.1 h)
  rintro ⟨name,version,subpath⟩ ⟨name',version',subpath'⟩ h
  simp only [sortKey,List.cons.injEq,and_true] at h
  obtain ⟨rfl,hversion,hsubpath⟩ := h
  rw [hpart hversion,hpart hsubpath]

/-- A set stays in order. -/
theorem pairwise_insert (h : ps.Pairwise (·.sortKey < ·.sortKey)) (p : PackageSpec) :
    (p.insert ps).Pairwise (·.sortKey < ·.sortKey) := by
  induction ps with
  | nil => exact List.pairwise_singleton _ _
  | cons q ps ih =>
    have ⟨hq,hps⟩ := List.pairwise_cons.1 h
    unfold insert
    split
    · exact h
    · rename_i hne
      split
      · rename_i hlt
        exact List.pairwise_cons.2 ⟨List.forall_mem_cons.2 ⟨hlt,fun r hr => List.lt_trans hlt (hq r hr)⟩,h⟩
      · rename_i hnot
        have hlt : q.sortKey < p.sortKey := Classical.byContradiction fun hnot' =>
          hne (sortKey_injective (Std.Trichotomous.trichotomous _ _ hnot hnot'))
        refine List.pairwise_cons.2 ⟨fun r hr => ?_,ih hps⟩
        rcases mem_insert_iff.1 hr with rfl | hr
        · exact hlt
        · exact hq r hr

theorem sortKey_lt_of_version {v : String} (hp : p.version = none) (hq : q = { p with version := some v }) :
    p.sortKey < q.sortKey := by
  subst hq
  have hempty : "" < "1" ++ v := by
    change "".toList < ("1" ++ v).toList
    rw [String.toList_append]
    exact List.nil_lt_cons _ _
  rw [sortKey,sortKey,hp,List.cons_lt_cons_iff,List.cons_lt_cons_iff]
  exact .inr ⟨rfl,.inl hempty⟩

/-- What is imported without a version is the first of a set that is called as it is. -/
theorem find?_bare_of_version_eq_none (h : ps.Pairwise (·.sortKey < ·.sortKey)) (hnamed : ∀ q ∈ ps, q.IsNamed)
    (hp : p ∈ ps) (hversion : p.version = none) : ps.find? (fun q => q.bare == p.bare) = some p := by
  obtain ⟨q,hq⟩ : ∃ q, ps.find? (fun q => q.bare == p.bare) = some q :=
    Option.isSome_iff_exists.1 (List.find?_isSome.2 ⟨p,hp,beq_self_eq_true _⟩)
  obtain ⟨hbare,before,after,rfl,hbefore⟩ := List.find?_eq_some_iff_append.1 hq
  have hmem : p ∈ q :: after := (List.mem_append.1 hp).resolve_left fun hp => by simpa using hbefore p hp
  have heq := (hnamed p hp).eq_of_bare (hnamed q (by simp)) (beq_iff_eq.1 hbare)
  rw [hq]
  cases hv : q.version with
  | none => rw [heq,hv,← hversion]
  | some v =>
    have hlt := sortKey_lt_of_version hversion (hv ▸ heq)
    rcases List.mem_cons.1 hmem with rfl | hafter
    · rfl
    · have hlater := (List.pairwise_cons.1 (List.pairwise_append.1 h).2.1).1 p hafter
      exact absurd hlater (Std.Asymm.asymm _ _ hlt)

end PreviewCompiler.PackageSpec
