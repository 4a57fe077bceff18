import Mathlib.Data.Option.Basic
import PreviewCompiler.Package.Specifier
import PreviewCompiler.Proofs.Data.List
import PreviewCompiler.Proofs.Files.Extension

namespace PreviewCompiler

open Data

namespace Text

variable {c : Char} {cs front back : List Char}

theorem cutAt?_append_cons (h : c ∉ front) (back : List Char) :
    cutAt? [c] (front ++ c :: back) = some (front,back) := by
  induction front with
  | nil => simp [cutAt?]
  | cons d front ih =>
    rw [List.mem_cons,not_or] at h
    have hfirst : ¬ [c].isPrefixOf (d :: (front ++ c :: back)) = true := by simp [h.1]
    rw [List.cons_append,cutAt?,if_neg hfirst,ih h.2]
    rfl

theorem cutAt?_of_not_mem (h : c ∉ cs) : cutAt? [c] cs = none := by
  induction cs with
  | nil => rfl
  | cons d cs ih =>
    rw [List.mem_cons,not_or] at h
    have hfirst : ¬ [c].isPrefixOf (d :: cs) = true := by simp [h.1]
    rw [cutAt?,if_neg hfirst,ih h.2]
    rfl

end Text

namespace PackageSpec

/-- A part of a text with the mark in front of it, if it is there. -/
def marked (mark : Char) : Option (List Char) → List Char
  | some cs => mark :: cs
  | none => []

variable {cs head name : List Char} {version subpath : Option (List Char)}

theorem not_mem_marked {c mark : Char} {part : Option (List Char)} (hc : c ≠ mark) (h : ∀ cs ∈ part, c ∉ cs) :
    c ∉ marked mark part := by
  cases part with
  | none => exact List.not_mem_nil
  | some cs => exact List.not_mem_cons_of_ne_of_not_mem hc (h cs rfl)

/-- The first slash is where a text is cut. -/
theorem cutSlash_eq_iff {front : List Char} {back : Option (List Char)} :
    cutSlash cs = (front,back) ↔ '/' ∉ front ∧ cs = front ++ marked '/' back := by
  have hcut : ∀ {front : List Char} (back : Option (List Char)), '/' ∉ front →
      cutSlash (front ++ marked '/' back) = (front,back) := by
    intro front back hfront
    cases back with
    | none => rw [marked,List.append_nil,cutSlash,Text.cutAt?_of_not_mem hfront]
    | some back => rw [marked,cutSlash,Text.cutAt?_append_cons hfront]
  constructor
  · intro h
    by_cases hmem : '/' ∈ cs
    · obtain ⟨front',back',rfl,hfront⟩ := List.eq_append_cons_of_mem hmem
      obtain ⟨rfl,rfl⟩ := Prod.mk.inj ((hcut (some back') hfront).symm.trans h)
      exact ⟨hfront,rfl⟩
    · have hself := hcut none hmem
      rw [marked,List.append_nil] at hself
      obtain ⟨rfl,rfl⟩ := Prod.mk.inj (hself.symm.trans h)
      exact ⟨hmem,(List.append_nil _).symm⟩
  · rintro ⟨hfront,rfl⟩
    exact hcut back hfront

/-- The last at sign is where a version is cut off. -/
theorem cutVersion_eq_iff : cutVersion cs = (name,version) ↔
    cs = name ++ marked '@' version ∧ '@' ∉ version.getD name := by
  have hcut : ∀ {name : List Char} (version : Option (List Char)), '@' ∉ version.getD name →
      cutVersion (name ++ marked '@' version) = (name,version) := by
    intro name version hat
    cases version with
    | none =>
      have hnone : ∀ d ∈ name, (d == '@') = false := fun d hd => beq_eq_false_iff_ne.2 fun heq => hat (heq ▸ hd)
      rw [marked,List.append_nil,cutVersion,Path.beforeLast?_of_none hnone]
    | some v =>
      have hnone : ∀ d ∈ v, (d == '@') = false := fun d hd => beq_eq_false_iff_ne.2 fun heq => hat (heq ▸ hd)
      rw [marked,cutVersion,Path.beforeLast?_append_cons (by rfl) hnone name]
      simp
  constructor
  · intro h
    by_cases hmem : '@' ∈ cs
    · obtain ⟨name',c,back,rfl,hc,hback⟩ := exists_last (p := (· == '@')) ⟨'@',hmem,rfl⟩
      obtain rfl := beq_iff_eq.1 hc
      have hat : '@' ∉ (some back).getD name' := fun hm => absurd (hback _ hm) (by decide)
      obtain ⟨rfl,rfl⟩ := Prod.mk.inj ((hcut (some back) hat).symm.trans h)
      exact ⟨rfl,hat⟩
    · have hself := hcut none hmem
      rw [marked,List.append_nil] at hself
      obtain ⟨rfl,rfl⟩ := Prod.mk.inj (hself.symm.trans h)
      exact ⟨(List.append_nil _).symm,hmem⟩
  · rintro ⟨rfl,hat⟩
    exact hcut version hat

/-- One segment that does not start with an at sign. -/
def IsPlain (name : List Char) : Prop := name ≠ [] ∧ '/' ∉ name ∧ name.head? ≠ some '@'

/-- Two segments behind an at sign. -/
def IsScoped (name : List Char) : Prop :=
  ∃ scope segment, name = '@' :: scope ++ '/' :: segment ∧ '/' ∉ scope ∧ '/' ∉ segment ∧ segment ≠ []

/-- Can a package have this name with this version, or without one? -/
structure CanHead (name : List Char) (version : Option (List Char)) : Prop where
  segments : IsPlain name ∨ IsScoped name
  ofVersion : ∀ v ∈ version, v ≠ [] ∧ '/' ∉ v ∧ '@' ∉ v
  ofNone : version = none → '@' ∉ name.tail

/-- Is a text one segment, or two behind an at sign, whatever the segments are? -/
def IsHead (head : List Char) : Prop := '/' ∉ head ∧ head.head? ≠ some '@' ∨
  ∃ scope segment, head = '@' :: scope ++ '/' :: segment ∧ '/' ∉ scope ∧ '/' ∉ segment

theorem cutSubpath?_eq_some_iff : cutSubpath? cs = some (head,subpath) ↔
    cs = head ++ marked '/' subpath ∧ IsHead head := by
  constructor
  · intro h
    unfold cutSubpath? at h
    split at h
    · rename_i cs
      split at h
      · contradiction
      · rename_i scope back hscope
        cases hback : cutSlash back with
        | mk segment rest =>
          rw [hback] at h
          obtain ⟨rfl,rfl⟩ := Prod.mk.inj (Option.some.inj h)
          obtain ⟨hslash,rfl⟩ := cutSlash_eq_iff.1 hscope
          obtain ⟨hsegment,rfl⟩ := cutSlash_eq_iff.1 hback
          exact ⟨by simp [marked],.inr ⟨scope,segment,rfl,hslash,hsegment⟩⟩
    · rename_i hfirst
      obtain ⟨hslash,hcs⟩ := cutSlash_eq_iff.1 (Option.some.inj h)
      refine ⟨hcs,.inl ⟨hslash,fun hat => ?_⟩⟩
      obtain ⟨rest,rfl⟩ := List.head?_eq_some_iff.1 hat
      exact hfirst _ hcs
  · rintro ⟨rfl,⟨hslash,hat⟩ | ⟨scope,segment,rfl,hscope,hsegment⟩⟩
    · have hcut : cutSlash (head ++ marked '/' subpath) = (head,subpath) := cutSlash_eq_iff.2 ⟨hslash,rfl⟩
      unfold cutSubpath?
      split
      · rename_i cs hcs
        cases head with
        | nil => cases subpath <;> simp [marked] at hcs
        | cons c head =>
          obtain rfl : c = '@' := (List.cons.inj hcs).1
          exact absurd rfl hat
      · exact congrArg some hcut
    · have houter : cutSlash (scope ++ '/' :: (segment ++ marked '/' subpath)) =
        (scope,some (segment ++ marked '/' subpath)) := cutSlash_eq_iff.2 ⟨hscope,rfl⟩
      have hinner : cutSlash (segment ++ marked '/' subpath) = (segment,subpath) := cutSlash_eq_iff.2 ⟨hsegment,rfl⟩
      have hcs : '@' :: scope ++ '/' :: segment ++ marked '/' subpath =
        '@' :: (scope ++ '/' :: (segment ++ marked '/' subpath)) := by simp
      rw [hcs,cutSubpath?,houter]
      simp only [hinner]

theorem isName_iff : isName name = true ↔ name ≠ [] ∧ name ≠ ['@'] ∧ name.getLast? ≠ some '/' ∧
    (name.head? = some '@' → '/' ∈ name) := by
  simp only [isName,Bool.and_eq_true,Bool.not_eq_true',List.isEmpty_eq_false_iff,bne_iff_ne,Bool.or_eq_true,
    List.contains_iff_mem,and_assoc]
  refine and_congr_right fun _ => and_congr_right fun _ => and_congr_right fun _ => ?_
  exact Decidable.imp_iff_not_or.symm

theorem cutHead_of_plain (h : head.head? ≠ some '@') : cutHead head = cutVersion head := by
  unfold cutHead
  split
  · exact absurd rfl h
  · rfl

theorem cutHead_of_scoped (h : cutVersion cs = (name,version)) : cutHead ('@' :: cs) = ('@' :: name,version) := by
  rw [cutHead,h]

/-- What is cut off as a version has no at sign, and no slash if what it is cut off from has none. -/
theorem CanHead.of_cutVersion (hsegments : IsPlain name ∨ IsScoped name) (hversion : version ≠ some [])
    (hslash : '/' ∉ marked '@' version) (hlast : '@' ∉ version.getD name.tail) : CanHead name version where
  segments := hsegments
  ofVersion v hv := by
    obtain rfl := Option.mem_def.1 hv
    exact ⟨fun h => hversion (h ▸ rfl),fun h => hslash (List.mem_cons_of_mem _ h),hlast⟩
  ofNone hnone := by rwa [hnone] at hlast

theorem CanHead.not_mem_getD (h : CanHead name version) : '@' ∉ version.getD name.tail := by
  cases version with
  | none => exact h.ofNone rfl
  | some v => exact (h.ofVersion v rfl).2.2

theorem CanHead.slash_not_mem (h : CanHead name version) : '/' ∉ marked '@' version :=
  not_mem_marked (by decide) fun v hv => (h.ofVersion v hv).2.1

theorem canHead_of_plain (hslash : '/' ∉ head) (hat : head.head? ≠ some '@') (hcut : cutHead head = (name,version))
    (hname : isName name = true) (hversion : version ≠ some []) :
    head = name ++ marked '@' version ∧ CanHead name version := by
  obtain ⟨hne,-⟩ := isName_iff.1 hname
  obtain ⟨rfl,hlast⟩ := cutVersion_eq_iff.1 ((cutHead_of_plain hat).symm.trans hcut)
  rw [List.mem_append,not_or] at hslash
  rw [List.head?_append_of_ne_nil _ hne] at hat
  refine ⟨rfl,.of_cutVersion (.inl ⟨hne,hslash.1,hat⟩) hversion hslash.2 ?_⟩
  cases version with
  | none => exact fun h => hlast (List.mem_of_mem_tail h)
  | some v => exact hlast

theorem canHead_of_scoped {scope segment : List Char} (hscope : '/' ∉ scope) (hsegment : '/' ∉ segment)
    (hcut : cutHead ('@' :: scope ++ '/' :: segment) = (name,version)) (hname : isName name = true)
    (hversion : version ≠ some []) :
    '@' :: scope ++ '/' :: segment = name ++ marked '@' version ∧ CanHead name version := by
  cases hversioned : cutVersion (scope ++ '/' :: segment) with
  | mk inner version' =>
    obtain ⟨rfl,rfl⟩ := Prod.mk.inj ((cutHead_of_scoped hversioned).symm.trans hcut)
    obtain ⟨hinner,hlast⟩ := cutVersion_eq_iff.1 hversioned
    obtain ⟨-,-,hend,hslash⟩ := isName_iff.1 hname
    have hslash : '/' ∈ inner := (List.mem_cons.1 (hslash rfl)).resolve_left (by decide)
    obtain ⟨scope',segment',rfl,hscope'⟩ := List.eq_append_cons_of_mem hslash
    rw [List.append_assoc,List.cons_append] at hinner
    obtain ⟨rfl,rfl⟩ := append_cons_cancel hscope hscope' hinner
    rw [List.mem_append,not_or] at hsegment
    have hne : segment' ≠ [] := by
      rintro rfl
      rw [← List.cons_append] at hend
      exact hend List.getLast?_concat
    exact ⟨by simp,.of_cutVersion (.inr ⟨scope,segment',rfl,hscope,hsegment.1,hne⟩) hversion hsegment.2 hlast⟩

theorem cutHead_of_isPlain (h : CanHead name version) (hplain : IsPlain name) :
    IsHead (name ++ marked '@' version) ∧ cutHead (name ++ marked '@' version) = (name,version) ∧
      isName name = true := by
  obtain ⟨hne,hslash,hat⟩ := hplain
  obtain ⟨c,name,rfl⟩ := List.exists_cons_of_ne_nil hne
  have hc : c ≠ '@' := fun h => hat (h ▸ rfl)
  have hlast : '@' ∉ version.getD (c :: name) := by
    have hlast := h.not_mem_getD
    cases version with
    | none => exact List.not_mem_cons_of_ne_of_not_mem hc.symm hlast
    | some v => exact hlast
  refine ⟨.inl ⟨fun hm => (List.mem_append.1 hm).elim hslash h.slash_not_mem,hat⟩,?_,isName_iff.2 ⟨hne,?_,?_,?_⟩⟩
  · have hfirst : (c :: name ++ marked '@' version).head? ≠ some '@' := hat
    exact (cutHead_of_plain hfirst).trans (cutVersion_eq_iff.2 ⟨rfl,hlast⟩)
  · exact fun h => hc (List.cons.inj h).1
  · exact fun h => hslash (List.mem_of_getLast? h)
  · exact fun h => absurd h hat

theorem cutHead_of_isScoped (h : CanHead name version) (hscoped : IsScoped name) :
    IsHead (name ++ marked '@' version) ∧ cutHead (name ++ marked '@' version) = (name,version) ∧
      isName name = true := by
  obtain ⟨scope,segment,rfl,hscope,hsegment,hne⟩ := hscoped
  refine ⟨.inr ⟨scope,segment ++ marked '@' version,by simp,hscope,fun hm => ?_⟩,?_,
    isName_iff.2 ⟨by simp,by simp,?_,fun _ => by simp⟩⟩
  · exact (List.mem_append.1 hm).elim hsegment h.slash_not_mem
  · rw [List.cons_append,List.cons_append]
    exact cutHead_of_scoped (cutVersion_eq_iff.2 ⟨rfl,h.not_mem_getD⟩)
  · rw [List.getLast?_append_of_ne_nil _ (List.cons_ne_nil _ _),List.getLast?_cons_of_ne_nil hne]
    exact fun h => hsegment (List.mem_of_getLast? h)

/-- What is in front of a path is cut into a name and a version exactly if they can stand there together. -/
theorem cutHead_eq_iff : IsHead head ∧ cutHead head = (name,version) ∧ isName name = true ∧ version ≠ some [] ↔
    head = name ++ marked '@' version ∧ CanHead name version := by
  constructor
  · rintro ⟨⟨hslash,hat⟩ | ⟨scope,segment,rfl,hscope,hsegment⟩,hcut,hname,hversion⟩
    · exact canHead_of_plain hslash hat hcut hname hversion
    · exact canHead_of_scoped hscope hsegment hcut hname hversion
  · rintro ⟨rfl,hcan⟩
    have hversion : version ≠ some [] := fun h => (hcan.ofVersion [] h).1 rfl
    obtain ⟨hhead,hcut,hname⟩ := hcan.segments.elim (cutHead_of_isPlain hcan) (cutHead_of_isScoped hcan)
    exact ⟨hhead,hcut,hname,hversion⟩

/-- Is a package one that a text can name? -/
structure IsWellFormed (p : PackageSpec) : Prop extends CanHead p.name.toList (p.version.map String.toList) where
  characters : ∀ field ∈ p.name :: (p.version.toList ++ p.subpath.toList), ∀ c ∈ field.toList,
    c ≠ ':' ∧ Text.isBlank c = false ∧ c ≠ '"' ∧ c ≠ '\''
  subpath : p.subpath ≠ some ""

/-- What the text of a package is made of. -/
theorem toList_text (p : PackageSpec) : p.text.toList =
    p.name.toList ++ marked '@' (p.version.map String.toList) ++ marked '/' (p.subpath.map String.toList) := by
  have hsubpath : p.subpathText.toList = marked '/' (p.subpath.map String.toList) := by
    rw [subpathText]
    cases p.subpath with
    | none => rfl
    | some t => exact String.toList_append
  rw [text,bare]
  cases p.version with
  | none => simp [marked,hsubpath]
  | some v => simp [marked,hsubpath]

theorem isForbidden_eq_false_iff {c : Char} :
    isForbidden c = false ↔ c ≠ ':' ∧ Text.isBlank c = false ∧ c ≠ '"' ∧ c ≠ '\'' := by
  simp only [isForbidden,Bool.or_eq_false_iff,beq_eq_false_iff_ne,and_assoc]

theorem forall_mem_marked {P : Char → Prop} {mark : Char} (hmark : P mark) (part : Option (List Char)) :
    (∀ c ∈ marked mark part, P c) ↔ ∀ cs ∈ part, ∀ c ∈ cs, P c := by
  cases part with
  | none => exact iff_of_true (fun _ h => absurd h List.not_mem_nil) nofun
  | some cs => simp [marked,hmark]

/-- The characters of a text are those of the parts of the package and the marks between them. -/
theorem forall_mem_text {P : Char → Prop} (p : PackageSpec) (hat : P '@') (hslash : P '/') :
    (∀ c ∈ p.text.toList, P c) ↔
      ∀ field ∈ p.name :: (p.version.toList ++ p.subpath.toList), ∀ c ∈ field.toList, P c := by
  rw [toList_text,List.forall_mem_append,List.forall_mem_append,forall_mem_marked hat,forall_mem_marked hslash,
    List.forall_mem_cons,List.forall_mem_append,and_assoc]
  simp

theorem CanHead.ne_nil (h : CanHead name version) : name ≠ [] := by
  rcases h.segments with ⟨hne,-⟩ | ⟨scope,segment,rfl,-⟩
  · exact hne
  · exact List.cons_ne_nil _ _

theorem CanHead.ne_at (h : CanHead name version) : name ≠ ['@'] := by
  rcases h.segments with ⟨-,-,hat⟩ | ⟨scope,segment,rfl,-⟩
  · rintro rfl
    exact hat rfl
  · simp

/-- A text is cut into the name, the version and the path of the package that it names. -/
theorem parse?_eq_some_iff_cut {s : String} {p : PackageSpec} : parse? s = some p ↔
    (∀ c ∈ s.toList, isForbidden c = false) ∧ ∃ subpath,
      s.toList = p.name.toList ++ marked '@' (p.version.map String.toList) ++ marked '/' subpath ∧
      CanHead p.name.toList (p.version.map String.toList) ∧
      p.subpath.map String.toList = subpath.filter (!·.isEmpty) := by
  have hguard : (!s.toList.isEmpty && !s.toList.any isForbidden) = true ↔
      s.toList ≠ [] ∧ ∀ c ∈ s.toList, isForbidden c = false := by
    simp only [Bool.and_eq_true,Bool.not_eq_true',List.isEmpty_eq_false_iff,List.any_eq_false,Bool.not_eq_true]
  simp only [parse?,Option.bind_eq_bind,Option.bind_eq_some_iff,Option.guard_eq_some',Prod.exists]
  constructor
  · rintro ⟨-,hchars,head,subpath,hhead,-,hname,hret⟩
    obtain rfl := Option.some.inj hret
    obtain ⟨hs,hhead⟩ := cutSubpath?_eq_some_iff.1 hhead
    obtain ⟨hname,hversion⟩ := Bool.and_eq_true_iff.1 hname
    obtain ⟨hcut,hcan⟩ := cutHead_eq_iff.1 ⟨hhead,rfl,hname,bne_iff_ne.1 hversion⟩
    have hmap : ∀ part : Option (List Char), (part.map String.ofList).map String.toList = part := fun part => by
      cases part <;> simp
    simp only [hmap,String.toList_ofList]
    exact ⟨(hguard.1 hchars).2,subpath,hcut ▸ hs,hcan,rfl⟩
  · rintro ⟨hchars,subpath,hs,hcan,hsubpath⟩
    obtain ⟨hhead,hcut,hname,hversion⟩ := cutHead_eq_iff.2 ⟨rfl,hcan⟩
    have hne : s.toList ≠ [] := by simp [hs,hcan.ne_nil]
    refine ⟨(),hguard.2 ⟨hne,hchars⟩,_,subpath,cutSubpath?_eq_some_iff.2 ⟨hs,hhead⟩,(),?_,?_⟩
    · rw [hcut,Bool.and_eq_true,bne_iff_ne]
      exact ⟨hname,hversion⟩
    · have hmap : ∀ part : Option String, (part.map String.toList).map String.ofList = part := fun part => by
        cases part <;> simp
      rw [hcut,← hsubpath]
      simp only [hmap,String.ofList_toList]
      rfl

/-- A slash at the end of a text that is cut off with nothing behind it gives no path. -/
theorem exists_subpath_iff {s : String} {p : PackageSpec} : (∃ subpath,
      s.toList = p.name.toList ++ marked '@' (p.version.map String.toList) ++ marked '/' subpath ∧
      p.subpath.map String.toList = subpath.filter (!·.isEmpty)) ↔
    p.subpath ≠ some "" ∧ (s = p.text ∨ p.subpath = none ∧ s = p.text ++ "/") := by
  constructor
  · rintro ⟨subpath,hs,hsubpath⟩
    by_cases hempty : subpath = some []
    · subst hempty
      have hnone : p.subpath = none := Option.map_eq_none_iff.1 hsubpath
      refine ⟨hnone ▸ nofun,.inr ⟨hnone,?_⟩⟩
      rw [← String.toList_inj,hs,String.toList_append,toList_text,hnone]
      simp [marked]
    · have hkeep : subpath.filter (!·.isEmpty) = subpath := by
        cases subpath with
        | none => rfl
        | some cs =>
          have hcs : cs ≠ [] := fun h => hempty (h ▸ rfl)
          simp [Option.filter,hcs]
      rw [hkeep] at hsubpath
      refine ⟨fun h => hempty ?_,.inl ?_⟩
      · rw [← hsubpath,h]
        rfl
      · rw [← String.toList_inj,hs,toList_text,hsubpath]
  · rintro ⟨hne,rfl | ⟨hnone,rfl⟩⟩
    · refine ⟨p.subpath.map String.toList,toList_text p,?_⟩
      cases hp : p.subpath with
      | none => rfl
      | some t =>
        have ht : t.toList ≠ [] := fun h => hne (hp.trans (congrArg some (String.toList_inj.1 h)))
        simp [Option.filter,ht]
    · refine ⟨some [],?_,by rw [hnone]; rfl⟩
      rw [String.toList_append,toList_text,hnone]
      simp [marked]

/-- A text names a package exactly if the package is well formed and the text is the one of it, or that with a slash
behind it if there is no path.  So the text of a package that was named names it. -/
theorem parse?_eq_some_iff (s : String) (p : PackageSpec) :
    (parse? s = some p ↔ p.IsWellFormed ∧ (s = p.text ∨ p.subpath = none ∧ s = p.text ++ "/")) ∧
    (parse? s = some p → parse? p.text = some p) := by
  have hnames : ∀ s, parse? s = some p ↔ p.IsWellFormed ∧ (s = p.text ∨ p.subpath = none ∧ s = p.text ++ "/") := by
    intro s
    rw [parse?_eq_some_iff_cut]
    constructor
    · rintro ⟨hchars,subpath,hs,hcan,hsubpath⟩
      obtain ⟨hne,hcases⟩ := exists_subpath_iff.1 ⟨subpath,hs,hsubpath⟩
      have htext : p.text.toList <+: s.toList := by
        rcases hcases with rfl | ⟨-,rfl⟩
        · exact List.prefix_rfl
        · exact String.toList_append ▸ List.prefix_append _ _
      have hparts := (forall_mem_text (P := (isForbidden · = false)) p rfl rfl).1 fun c hc => hchars c (htext.mem hc)
      exact ⟨⟨hcan,fun field hfield c hc => isForbidden_eq_false_iff.1 (hparts field hfield c hc),hne⟩,hcases⟩
    · rintro ⟨hp,hcases⟩
      obtain ⟨subpath,hs,hsubpath⟩ := exists_subpath_iff.2 ⟨hp.subpath,hcases⟩
      have htext := (forall_mem_text (P := (isForbidden · = false)) p rfl rfl).2 fun field hfield c hc =>
        isForbidden_eq_false_iff.2 (hp.characters field hfield c hc)
      refine ⟨fun c hc => ?_,subpath,hs,hp.toCanHead,hsubpath⟩
      rcases hcases with rfl | ⟨-,rfl⟩
      · exact htext c hc
      · rw [String.toList_append] at hc
        rcases List.mem_append.1 hc with hc | hc
        · exact htext c hc
        · rw [List.mem_singleton.1 hc]
          rfl
  refine ⟨hnames s,fun h => ?_⟩
  exact (hnames p.text).2 ⟨((hnames s).1 h).1,.inl rfl⟩

example : parse? "@scope/pkg@2.1.0/" = some ⟨"@scope/pkg",some "2.1.0",none⟩ := by decide +kernel

end PackageSpec

end PreviewCompiler
