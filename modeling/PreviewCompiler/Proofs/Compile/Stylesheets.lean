import PreviewCompiler.Proofs.Compile.Candidates
import PreviewCompiler.Proofs.Text.Letter

namespace PreviewCompiler

open Data PreviewCompiler.Path

namespace Path

variable {path : String} {c : Char} {z : List Char}

theorem isSlash_iff : isSlash c = true ↔ c = '/' ∨ c = '\\' := by
  rw [isSlash,Bool.or_eq_true,beq_iff_eq,beq_iff_eq]

/-- What is behind the last slash is the last segment. -/
theorem segments_append_cons (hc : isSlash c = true) (hz : IsSegment z) (front : List Char) :
    segments (front ++ c :: z) = segments front ++ [z] := by
  rw [segments,Text.splitAll_append_of_separator hc,Text.splitAll_of_no_separator hz.2.2.2,List.foldl_append]
  simp only [List.foldl_cons,List.foldl_nil,push_of_isSegment hz,List.reverse_cons]
  rfl

theorem fileName_suffix (cs : List Char) : fileName cs <:+ cs := by
  rw [← List.reverse_prefix,fileName,List.reverse_reverse]
  exact List.takeWhile_prefix _

theorem isStylesheet_iff_extension? : isStylesheet path = true ↔ extension? path = some ".css" := by
  rw [isStylesheet,SourceKind.ofPath,beq_iff_eq]
  unfold SourceKind.ofExtension
  split <;> simp_all

theorem dot_not_mem {back : List Char} (h : back.map Char.toLower = "css".toList) : '.' ∉ back := fun hm =>
  absurd (h ▸ List.mem_map_of_mem hm) (by decide)

theorem isSlash_of_mem_extension {ext : List Char} (h : ext.map Char.toLower = ".css".toList) :
    ∀ d ∈ ext, isSlash d = false := fun d hd => by
  have hmem : d.toLower ∈ ".css".toList := h ▸ List.mem_map_of_mem hd
  refine Bool.eq_false_iff.2 fun hslash => ?_
  rcases isSlash_iff.1 hslash with rfl | rfl <;> exact absurd hmem (by decide)

theorem isStylesheet_eq_false_of_isModule (h : isModule path = true) : isStylesheet path = false := by
  unfold isModule at h
  unfold isStylesheet
  cases hkind : SourceKind.ofPath path <;> rw [hkind] at h <;> first | rfl | contradiction

/-- A stylesheet has a name of its own in front of the last dot. -/
theorem isStylesheet_iff : isStylesheet path = true ↔ ∃ stem back, fileName path.toList = stem ++ '.' :: back ∧
    stem ≠ [] ∧ back.map Char.toLower = "css".toList := by
  have hcss : ∀ back : List Char, ".css" = String.ofList (('.' :: back).map Char.toLower) ↔
      back.map Char.toLower = "css".toList := by
    intro back
    rw [← String.toList_inj,List.map_cons,String.toList_ofList (l := '.'.toLower :: back.map Char.toLower)]
    exact ⟨fun h => (List.cons.inj h).2.symm,fun h => congrArg (List.cons '.') h.symm⟩
  rw [isStylesheet_iff_extension?,extension?_eq_some_iff]
  simp only [hcss]
  exact ⟨fun ⟨stem,back,hname,hne,_,h⟩ => ⟨stem,back,hname,hne,h⟩,
    fun ⟨stem,back,hname,hne,h⟩ => ⟨stem,back,hname,hne,dot_not_mem h,h⟩⟩

end Path

namespace Resolution

variable {specifier importer b : String}

/-- The path that a specifier names is cut where the specifier is, from its last slash on. -/
theorem Names.exists_last (h : Names importer specifier b) (hdots : specifier ≠ "." ∧ specifier ≠ "..") :
    ∃ front front' c z, specifier.toList = front ++ c :: z ∧ isSlash c = true ∧ (∀ d ∈ z, isSlash d = false) ∧
      b.toList = ofSegments (segments (front' ++ c :: z)) := by
  have htail : ∃ front front' tail, specifier.toList = front ++ '/' :: tail ∧
      b.toList = ofSegments (segments (front' ++ '/' :: tail)) := by
    cases h with
    | aliased rest =>
      refine ⟨['@'],[],rest.toList,String.toList_append,?_⟩
      rw [Path.normalize,String.toList_ofList,List.nil_append,segments_cons_slash]
    | absolute rest =>
      refine ⟨[],[],rest.toList,String.toList_append,?_⟩
      rw [Path.normalize,String.toList_ofList,String.toList_append]
      rfl
    | relative h =>
      rcases h with rfl | rfl | ⟨rest,rfl | rfl⟩
      · exact absurd rfl hdots.1
      · exact absurd rfl hdots.2
      · refine ⟨['.'],(parent importer).toList ++ ['/','.'],rest.toList,String.toList_append,?_⟩
        rw [Path.normalize,String.toList_ofList]
        simp
      · refine ⟨['.','.'],(parent importer).toList ++ ['/','.','.'],rest.toList,String.toList_append,?_⟩
        rw [Path.normalize,String.toList_ofList]
        simp
  obtain ⟨front,front',tail,hspecifier,hb⟩ := htail
  obtain ⟨middle,c,z,hcut,hc,hz⟩ := Data.exists_last (p := isSlash) ⟨'/',List.mem_cons_self (l := tail),rfl⟩
  refine ⟨front ++ middle,front' ++ middle,c,z,?_,hc,hz,?_⟩
  · rw [hspecifier,hcut,List.append_assoc]
  · rw [hb,hcut,List.append_assoc]

/-- The name behind the last slash or backslash of a specifier that is written like the path of a stylesheet is that of
the path which it names; it starts with the dot of the extension behind a backslash only. -/
theorem Names.exists_name (h : Names importer specifier b) (hstyle : isStylesheet specifier = true) :
    ∃ front c stem back, specifier.toList = front ++ c :: stem ++ '.' :: back ∧ (∀ d ∈ stem, isSlash d = false) ∧
      ('.' :: back).map Char.toLower = ".css".toList ∧ (stem = [] → c = '\\') ∧
      fileName b.toList = stem ++ '.' :: back := by
  obtain ⟨stem,back,hname,hne,hback⟩ := Path.isStylesheet_iff.1 hstyle
  have hdots : specifier ≠ "." ∧ specifier ≠ ".." := by
    constructor <;>
    · rintro rfl
      exact absurd hstyle (by decide)
  obtain ⟨front,front',c,z,hspecifier,hc,hz,hb⟩ := h.exists_last hdots
  have hlower : ('.' :: back).map Char.toLower = ".css".toList := congrArg (List.cons '.') hback
  have hext := isSlash_of_mem_extension hlower
  obtain ⟨stem',rfl⟩ : '.' :: back <:+ z := by
    have hend : '.' :: back <:+ specifier.toList :=
      (hname ▸ List.suffix_append stem ('.' :: back)).trans (fileName_suffix _)
    have hno : c ∉ '.' :: back := fun hm => absurd (hc.symm.trans (hext c hm)) (by decide)
    exact suffix_of_suffix_append_cons hno (hspecifier ▸ hend)
  have hstem : ∀ d ∈ stem', isSlash d = false := fun d hd => hz d (List.mem_append_left _ hd)
  have hsegment : IsSegment (stem' ++ '.' :: back) := by
    have hlength : ('.' :: back).length = 4 := by
      rw [← List.length_map,hlower]
      rfl
    exact isSegment_append hstem hext (by omega)
  refine ⟨front,c,stem',back,by rw [hspecifier,List.append_assoc,List.cons_append],hstem,hlower,?_,?_⟩
  · rintro rfl
    refine (isSlash_iff.1 hc).resolve_left ?_
    rintro rfl
    rw [hspecifier,fileName_append (slash_not_mem hz)] at hname
    have hname : stem ++ '.' :: back = [] ++ '.' :: back := hname.symm
    exact hne (List.append_cancel_right hname)
  · rw [hb,segments_append_cons hc hsegment,ofSegments_of_ne_nil (by simp),List.flatMap_append,List.flatMap_singleton]
    exact fileName_append (slash_not_mem hz) _

/-- Is the end of a stylesheet's path a whole name, behind a backslash? -/
def HidesStyles (specifier : String) : Prop := "\\.css".toList <:+ specifier.toList.map Char.toLower

instance (specifier : String) : Decidable (HidesStyles specifier) := inferInstanceAs (Decidable (_ <:+ _))

theorem hidesStyles_iff {front stem back : List Char} {c : Char}
    (hspecifier : specifier.toList = front ++ c :: stem ++ '.' :: back) (hstem : ∀ d ∈ stem, isSlash d = false)
    (hback : ('.' :: back).map Char.toLower = ".css".toList) (hc : stem = [] → c = '\\') :
    HidesStyles specifier ↔ stem = [] := by
  have hcut : HidesStyles specifier ↔ ∃ t, t ++ ['\\'] = (front ++ c :: stem).map Char.toLower := by
    have hsplit : "\\.css".toList = ['\\'] ++ ".css".toList := rfl
    rw [HidesStyles,hspecifier,List.map_append,hback,hsplit]
    refine exists_congr fun t => ?_
    rw [← List.append_assoc t,List.append_left_inj]
  rw [hcut]
  constructor
  · rintro ⟨t,ht⟩
    refine (List.eq_nil_or_concat' stem).resolve_right ?_
    rintro ⟨init,d,rfl⟩
    rw [← List.cons_append,← List.append_assoc,List.map_append] at ht
    have hd : '\\' = d.toLower := (List.cons.inj (List.append_inj' ht rfl).2).1
    obtain rfl := Text.eq_of_toLower_eq hd.symm (by decide)
    have hslash := hstem '\\' (List.mem_append_right _ List.mem_cons_self)
    contradiction
  · intro hnil
    rw [hc hnil,hnil]
    exact ⟨front.map Char.toLower,by rw [List.map_append]; rfl⟩

/-- The path named by a specifier that is written like that of a stylesheet is one, unless a backslash hides it. -/
theorem Names.isStylesheet_iff (h : Names importer specifier b) (hstyle : isStylesheet specifier = true) :
    isStylesheet b = true ↔ ¬ HidesStyles specifier := by
  obtain ⟨front,c,stem,back,hspecifier,hstem,hback,hc,hname⟩ := h.exists_name hstyle
  have hback' : back.map Char.toLower = "css".toList := (List.cons.inj hback).2
  rw [hidesStyles_iff hspecifier hstem hback hc,Path.isStylesheet_iff,hname]
  refine ⟨fun ⟨stem',back',hcut,hne,hback''⟩ => ?_,fun hne => ⟨stem,back,rfl,hne,hback'⟩⟩
  rwa [(append_cons_cancel_last (dot_not_mem hback') (dot_not_mem hback'') hcut).1]

/-- A specifier that is written like the path of a stylesheet means one exactly if the file is the very path that it
names and no backslash hides the name of it. -/
theorem isStylesheet_iff_of_resolve {fs : FileSet} {path : String} (hlocal : isLocal specifier = true)
    (hstyle : isStylesheet specifier = true) (h : resolve fs specifier importer = .file path) :
    isStylesheet path = true ↔ path = Resolution.base specifier importer ∧ ¬ HidesStyles specifier := by
  have hmem := List.mem_of_find?_eq_some ((resolve_iff_of_isLocal hlocal).1 h)
  have hmodule := (isCanonical_of_candidate (isCanonical_base specifier importer) hmem).2
  by_cases hself : path = Resolution.base specifier importer
  · rw [hself,(names_base hlocal importer).isStylesheet_iff hstyle]
    exact (and_iff_right rfl).symm
  · rw [isStylesheet_eq_false_of_isModule (hmodule hself)]
    exact iff_of_false Bool.false_ne_true fun hn => hself hn.1

end Resolution

end PreviewCompiler
