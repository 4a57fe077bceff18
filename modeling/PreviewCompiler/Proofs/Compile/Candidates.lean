import PreviewCompiler.Compile.Resolution
import PreviewCompiler.Proofs.Data.List
import PreviewCompiler.Proofs.Files.Editing
import PreviewCompiler.Proofs.Files.Extension

namespace PreviewCompiler

open Data PreviewCompiler.Path

namespace Path

variable {base path e : String} {segs : List (List Char)}

/-- A segment that is longer than the dots stays one whatever is in front of it. -/
theorem isSegment_append {s e : List Char} (hs : ∀ c ∈ s, isSlash c = false) (he : ∀ c ∈ e, isSlash c = false)
    (hlen : 2 < e.length) : IsSegment (s ++ e) := by
  have hlong : 2 < (s ++ e).length := by
    rw [List.length_append]
    omega
  refine ⟨?_,?_,?_,fun c hc => (List.mem_append.1 hc).elim (hs c) (he c)⟩ <;>
  · intro h
    rw [h] at hlong
    contradiction

/-- A canonical path other than the root ends in a segment. -/
theorem IsCanonical.eq_append (h : IsCanonical base) (hroot : base ≠ "/") : ∃ (segs : List (List Char)) (s : List Char),
    (∀ t ∈ segs, IsSegment t) ∧ IsSegment s ∧ base.toList = segs.flatMap ('/' :: ·) ++ '/' :: s := by
  obtain ⟨segs,hsegs,hbase⟩ := h
  rcases List.eq_nil_or_concat' segs with rfl | ⟨front,s,rfl⟩
  · exact absurd (String.toList_inj.1 hbase) hroot
  · obtain ⟨hfront,hs⟩ := List.forall_mem_append.1 hsegs
    refine ⟨front,s,hfront,List.forall_mem_singleton.1 hs,?_⟩
    rw [hbase,ofSegments_of_ne_nil (by simp),List.flatMap_append,List.flatMap_singleton]

/-- The directory that a canonical path names, without the slash of the root. -/
theorem IsCanonical.toList_dropEndSlashes (h : IsCanonical base) : ∃ segs : List (List Char),
    (∀ t ∈ segs, IsSegment t) ∧ (Text.dropEndSlashes base).toList = segs.flatMap ('/' :: ·) := by
  by_cases hroot : base = "/"
  · subst hroot
    exact ⟨[],fun _ ht => absurd ht List.not_mem_nil,by decide +kernel⟩
  · obtain ⟨segs,s,hsegs,hs,hbase⟩ := h.eq_append hroot
    refine ⟨segs ++ [s],List.forall_mem_append.2 ⟨hsegs,List.forall_mem_singleton.2 hs⟩,?_⟩
    rw [h.dropEndSlashes_eq hroot,hbase,List.flatMap_append,List.flatMap_singleton]

theorem isCanonical_of_toList {s : List Char} (hsegs : ∀ t ∈ segs, IsSegment t) (hs : IsSegment s)
    (hpath : path.toList = segs.flatMap ('/' :: ·) ++ '/' :: s) : IsCanonical path := by
  refine ⟨segs ++ [s],List.forall_mem_append.2 ⟨hsegs,List.forall_mem_singleton.2 hs⟩,?_⟩
  rw [hpath,ofSegments_of_ne_nil (by simp),List.flatMap_append,List.flatMap_singleton]

end Path

namespace Resolution

variable {base path e f : String} {fs : FileSet} {specifier importer : String}

theorem cases_of_mem_candidates (h : path ∈ candidates base) :
    path = base ∨ (base ≠ "/" ∧ ∃ e ∈ extensions, path = base ++ e) ∨
      ∃ f ∈ indexFiles, path = Text.dropEndSlashes base ++ "/" ++ f := by
  rcases List.mem_append.1 h with h | h
  · split at h
    · contradiction
    · rename_i hroot
      rcases List.mem_cons.1 h with rfl | h
      · exact .inl rfl
      · obtain ⟨e,he,rfl⟩ := List.mem_map.1 h
        exact .inr (.inl ⟨hroot,e,he,rfl⟩)
  · obtain ⟨f,hf,rfl⟩ := List.mem_map.1 h
    exact .inr (.inr ⟨f,hf,rfl⟩)

/-- The candidates of a canonical path, one by one. -/
theorem candidates_eq (h : IsCanonical base) : candidates base =
    (if base = "/" then ["/index.jsx","/index.tsx","/index.js","/index.ts"]
      else [base,base ++ ".jsx",base ++ ".tsx",base ++ ".js",base ++ ".ts",
        base ++ "/index.jsx",base ++ "/index.tsx",base ++ "/index.js",base ++ "/index.ts"]) := by
  unfold candidates
  split
  · rename_i hroot
    subst hroot
    decide +kernel
  · rename_i hroot
    rw [h.dropEndSlashes_eq hroot]
    simp only [extensions,indexFiles,List.map_cons,List.map_nil,List.cons_append,List.nil_append,String.append_assoc]
    rfl

/-- The characters of an extension behind its dot. -/
theorem extension_eq_cons : ∀ e ∈ extensions, ∃ ext, e.toList = '.' :: ext ∧ '.' ∉ ext ∧ 2 < e.toList.length ∧
    (∀ c ∈ e.toList, isSlash c = false) ∧ e.toList.map Char.toLower = e.toList ∧
    (SourceKind.ofExtension (some e)).isModule = true := by
  intro e he
  obtain rfl | rfl | rfl | rfl : e = ".jsx" ∨ e = ".tsx" ∨ e = ".js" ∨ e = ".ts" := by simpa [extensions] using he
  all_goals exact ⟨_,rfl,by decide,by decide,by simp [isSlash],rfl,rfl⟩

theorem slash_not_mem {s : List Char} (h : ∀ c ∈ s, isSlash c = false) : '/' ∉ s := fun hm =>
  absurd (h _ hm) (by decide)

/-- A segment with an extension behind it makes a canonical path, which is that of a module. -/
theorem isModule_of_extension {segs : List (List Char)} {stem : List Char} (he : e ∈ extensions)
    (hsegs : ∀ t ∈ segs, IsSegment t) (hstem : IsSegment stem)
    (hpath : path.toList = segs.flatMap ('/' :: ·) ++ '/' :: (stem ++ e.toList)) :
    IsCanonical path ∧ isModule path = true := by
  obtain ⟨ext,hext,hdot,hlen,hflat,hlower,hmodule⟩ := extension_eq_cons e he
  obtain ⟨hne,-,-,hslash⟩ := hstem
  have hs := isSegment_append hslash hflat hlen
  refine ⟨isCanonical_of_toList hsegs hs hpath,?_⟩
  rw [hext] at hs hpath
  have hname : fileName path.toList = stem ++ '.' :: ext := by
    rw [hpath]
    exact fileName_append (slash_not_mem hs.2.2.2) _
  have hextension : extension? path = some e := by
    refine extension?_eq_some_iff.2 ⟨stem,ext,hname,hne,hdot,?_⟩
    rw [← hext,hlower,String.ofList_toList]
  rw [isModule,SourceKind.ofPath,hextension]
  exact hmodule

/-- An index file has an extension. -/
theorem exists_extension : ∀ f ∈ indexFiles, ∃ e ∈ extensions, f = "index" ++ e := by decide

theorem isSegment_index : IsSegment "index".toList := by
  have hslash : "index".toList.all (!isSlash ·) = true := by decide
  exact ⟨by decide,by decide,by decide,fun c hc => Bool.not_eq_true' _ ▸ List.all_eq_true.1 hslash c hc⟩

/-- Whatever a canonical path may stand for is canonical, and a module unless it is the path itself. -/
theorem isCanonical_of_candidate (hbase : IsCanonical base) (h : path ∈ candidates base) :
    IsCanonical path ∧ (path ≠ base → isModule path = true) := by
  by_cases hself : path = base
  · exact ⟨hself ▸ hbase,fun hne => absurd hself hne⟩
  have hmodule : IsCanonical path ∧ isModule path = true := by
    rcases (cases_of_mem_candidates h).resolve_left hself with ⟨hroot,e,he,rfl⟩ | ⟨f,hf,rfl⟩
    · obtain ⟨segs,stem,hsegs,hstem,hpath⟩ := hbase.eq_append hroot
      refine isModule_of_extension he hsegs hstem ?_
      rw [String.toList_append,hpath,List.append_assoc,List.cons_append]
    · obtain ⟨segs,hsegs,hdir⟩ := hbase.toList_dropEndSlashes
      obtain ⟨e,he,rfl⟩ := exists_extension f hf
      refine isModule_of_extension he hsegs isSegment_index ?_
      rw [String.toList_append,String.toList_append,String.toList_append,hdir,List.append_assoc]
      rfl
  exact ⟨hmodule.1,fun _ => hmodule.2⟩

/-- The path that a specifier names in a file: behind the alias of the root, from the root, or from the directory of the
file. -/
inductive Names (importer : String) : (specifier base : String) → Prop where
  | aliased (rest : String) : Names importer ("@/" ++ rest) (Path.normalize rest)
  | absolute (rest : String) : Names importer ("/" ++ rest) (Path.normalize ("/" ++ rest))
  | relative {specifier : String} (h : specifier = "." ∨ specifier = ".." ∨
      ∃ rest, specifier = "./" ++ rest ∨ specifier = "../" ++ rest) :
    Names importer specifier (Path.normalize (parent importer ++ "/" ++ specifier))

theorem exists_of_hasFront {front s : String} (h : Text.hasFront front s = true) : ∃ rest, s = front ++ rest := by
  obtain ⟨rest,hrest⟩ := List.isPrefixOf_iff_prefix.1 h
  exact ⟨String.ofList rest,by rw [← String.toList_inj,String.toList_append,String.toList_ofList,hrest]⟩

theorem names_base (h : isLocal specifier = true) (importer : String) :
    Names importer specifier (Resolution.base specifier importer) := by
  have hrelative : ∀ {s : String}, (s = "." ∨ s = ".." ∨ ∃ rest, s = "./" ++ rest ∨ s = "../" ++ rest) →
      Names importer s (Resolution.base s importer) := by
    intro s hs
    have hbase : Resolution.base s importer = Path.normalize (parent importer ++ "/" ++ s) := by
      rcases hs with rfl | rfl | ⟨rest,rfl | rfl⟩ <;> simp [Resolution.base]
    rw [hbase]
    exact .relative hs
  simp only [isLocal,List.any_cons,List.any_nil,Bool.or_false,Bool.or_eq_true,beq_iff_eq] at h
  rcases h with ((h | h | h | h) | rfl) | rfl
  · obtain ⟨rest,rfl⟩ := exists_of_hasFront h
    have hbase : Resolution.base ("@/" ++ rest) importer = Path.normalize rest := by simp [Resolution.base]
    rw [hbase]
    exact .aliased rest
  · obtain ⟨rest,rfl⟩ := exists_of_hasFront h
    exact hrelative (.inr (.inr ⟨rest,.inl rfl⟩))
  · obtain ⟨rest,rfl⟩ := exists_of_hasFront h
    exact hrelative (.inr (.inr ⟨rest,.inr rfl⟩))
  · obtain ⟨rest,rfl⟩ := exists_of_hasFront h
    have hbase : Resolution.base ("/" ++ rest) importer = Path.normalize ("/" ++ rest) := by simp [Resolution.base]
    rw [hbase]
    exact .absolute rest
  · exact hrelative (.inl rfl)
  · exact hrelative (.inr (.inl rfl))

theorem isCanonical_base (specifier importer : String) : IsCanonical (Resolution.base specifier importer) := by
  unfold Resolution.base
  split <;> exact isCanonical_normalize _

theorem resolve_iff_of_isLocal (h : isLocal specifier = true) : resolve fs specifier importer = .file path ↔
    probe (Resolution.base specifier importer) (FileSet.isFile · fs) = some path := by
  unfold resolve
  rw [if_pos h]
  cases probe (Resolution.base specifier importer) (FileSet.isFile · fs) with
  | none => simp
  | some p => simp

theorem resolve_eq_nothing_iff_of_isLocal (h : isLocal specifier = true) : resolve fs specifier importer = .nothing ↔
    probe (Resolution.base specifier importer) (FileSet.isFile · fs) = none := by
  unfold resolve
  rw [if_pos h]
  cases probe (Resolution.base specifier importer) (FileSet.isFile · fs) with
  | none => simp
  | some p => simp

theorem exists_file_of_isLocal (h : isLocal specifier = true) (hfound : resolve fs specifier importer ≠ .nothing) :
    ∃ path, resolve fs specifier importer = .file path := by
  obtain ⟨path,hpath⟩ := Option.ne_none_iff_exists'.1 (mt (resolve_eq_nothing_iff_of_isLocal h).2 hfound)
  exact ⟨path,(resolve_iff_of_isLocal h).2 hpath⟩

/-- A specifier means the same in snapshots in which its path stands for the same file. -/
theorem resolve_eq_of_probe {fs' : FileSet} (h : isLocal specifier = true)
    (hsame : probe (Resolution.base specifier importer) (FileSet.isFile · fs) =
      probe (Resolution.base specifier importer) (FileSet.isFile · fs')) :
    resolve fs specifier importer = resolve fs' specifier importer := by
  unfold resolve
  rw [if_pos h,if_pos h,hsame]

theorem isFile_insertFile_of_ne {q content : String} (h : path ≠ Path.normalize q) :
    FileSet.isFile path (FileSet.insertFile q content fs) = FileSet.isFile path fs := by
  rw [FileSet.isFile,FileSet.get?_insertFile,if_neg h,FileSet.isFile]
  cases FileSet.get? path fs with
  | some e => rw [Option.some_or]
  | none =>
    rw [Option.none_or]
    split <;> rfl

theorem isFile_insertFile_self (q content : String) (fs : FileSet) :
    FileSet.isFile (Path.normalize q) (FileSet.insertFile q content fs) = true := by
  rw [FileSet.isFile,FileSet.get?_insertFile,if_pos rfl]
  rfl

/-- A file that comes is meant, or the specifier means what it meant before. -/
theorem resolve_insertFile (h : isLocal specifier = true) (importer q content : String) (fs : FileSet) :
    resolve (FileSet.insertFile q content fs) specifier importer = resolve fs specifier importer ∨
      resolve (FileSet.insertFile q content fs) specifier importer = .file (Path.normalize q) := by
  have hagree : ∀ p, p ≠ Path.normalize q →
      FileSet.isFile p (FileSet.insertFile q content fs) = FileSet.isFile p fs := fun _ => isFile_insertFile_of_ne
  rcases find?_eq_or hagree (candidates (Resolution.base specifier importer)) with hsame | ⟨-,hq⟩ | ⟨hold,-⟩
  · exact .inl (resolve_eq_of_probe h hsame)
  · exact .inr ((resolve_iff_of_isLocal h).2 hq)
  · have hall : (FileSet.isFile · (FileSet.insertFile q content fs)) = (FileSet.isFile · fs) := by
      funext p
      by_cases hp : p = Path.normalize q
      · rw [hp,isFile_insertFile_self,hold]
      · exact hagree p hp
    exact .inl (resolve_eq_of_probe h (by rw [hall]))

/-- A file that goes and was not meant changes nothing. -/
theorem resolve_of_remove {fs' : FileSet} {q : String} {e : Entry} (h : isLocal specifier = true)
    (hr : FileSet.remove q fs = some (e,fs')) (he : e.isFile = true)
    (hne : resolve fs specifier importer ≠ .file (Path.normalize q)) :
    resolve fs' specifier importer = resolve fs specifier importer := by
  have hget : ∀ p, FileSet.get? p fs' = if p = Path.normalize q then none else FileSet.get? p fs := fun p => by
    rw [(FileSet.get?_of_remove hr p).2]
    simp [he]
  have hagree : ∀ p, p ≠ Path.normalize q → FileSet.isFile p fs' = FileSet.isFile p fs := fun p hp => by
    rw [FileSet.isFile,hget,if_neg hp,FileSet.isFile]
  have hgone : FileSet.isFile (Path.normalize q) fs' = false := by
    rw [FileSet.isFile,hget,if_pos rfl]
    rfl
  rcases find?_eq_or hagree (candidates (Resolution.base specifier importer)) with hsame | ⟨hnew,-⟩ | ⟨-,hq⟩
  · exact resolve_eq_of_probe h hsame
  · exact absurd (hnew.symm.trans hgone) (by decide)
  · exact absurd ((resolve_iff_of_isLocal h).2 hq) hne

/-- A specifier of a project file means the first file among the candidates of the path that it names, whatever the
snapshot is.  What is meant is canonical, and a module unless it is the path itself; a file that comes is meant or
changes nothing, and one that goes without being meant changes nothing. -/
theorem meant_is_first_candidate (fs : FileSet) (specifier importer : String) (h : isLocal specifier = true) :
    ∃ b, Names importer specifier b ∧
    let paths := if b = "/" then ["/index.jsx","/index.tsx","/index.js","/index.ts"]
      else [b,b ++ ".jsx",b ++ ".tsx",b ++ ".js",b ++ ".ts",
        b ++ "/index.jsx",b ++ "/index.tsx",b ++ "/index.js",b ++ "/index.ts"]
    (∀ p, resolve fs specifier importer = .file p ↔ paths.find? (FileSet.isFile · fs) = some p) ∧
    (resolve fs specifier importer = .nothing ↔ ∀ p ∈ paths, FileSet.isFile p fs = false) ∧
    (∀ p, resolve fs specifier importer = .file p → IsCanonical p ∧ (p ≠ b → isModule p = true)) ∧
    (∀ q content, resolve (FileSet.insertFile q content fs) specifier importer = resolve fs specifier importer ∨
      resolve (FileSet.insertFile q content fs) specifier importer = .file (Path.normalize q)) ∧
    (∀ q e fs', FileSet.remove q fs = some (e,fs') → e.isFile = true →
      resolve fs specifier importer ≠ .file (Path.normalize q) →
      resolve fs' specifier importer = resolve fs specifier importer) := by
  have hbase := isCanonical_base specifier importer
  refine ⟨Resolution.base specifier importer,names_base h importer,?_⟩
  rw [← candidates_eq hbase]
  refine ⟨fun p => resolve_iff_of_isLocal h,?_,fun p hp => ?_,fun q content => ?_,fun q e fs' => ?_⟩
  · rw [resolve_eq_nothing_iff_of_isLocal h,probe,List.find?_eq_none]
    simp only [Bool.not_eq_true]
  · exact isCanonical_of_candidate hbase (List.mem_of_find?_eq_some ((resolve_iff_of_isLocal h).1 hp))
  · exact resolve_insertFile h importer q content fs
  · exact resolve_of_remove h

/-- The module beside the directory of its name comes before the index file in there. -/
theorem meant_is_first_candidate_of_module :
    let fs : FileSet := .ofFiles [("/Foo.js",""),("/Foo/index.jsx","")]
    isLocal "./Foo" = true ∧ ∃ b, Names "/App.jsx" "./Foo" b ∧
    let paths := if b = "/" then ["/index.jsx","/index.tsx","/index.js","/index.ts"]
      else [b,b ++ ".jsx",b ++ ".tsx",b ++ ".js",b ++ ".ts",
        b ++ "/index.jsx",b ++ "/index.tsx",b ++ "/index.js",b ++ "/index.ts"]
    (∀ p, resolve fs "./Foo" "/App.jsx" = .file p ↔ paths.find? (FileSet.isFile · fs) = some p) ∧
    (resolve fs "./Foo" "/App.jsx" = .nothing ↔ ∀ p ∈ paths, FileSet.isFile p fs = false) ∧
    (∀ p, resolve fs "./Foo" "/App.jsx" = .file p → IsCanonical p ∧ (p ≠ b → isModule p = true)) ∧
    (∀ q content, resolve (FileSet.insertFile q content fs) "./Foo" "/App.jsx" = resolve fs "./Foo" "/App.jsx" ∨
      resolve (FileSet.insertFile q content fs) "./Foo" "/App.jsx" = .file (Path.normalize q)) ∧
    (∀ q e fs', FileSet.remove q fs = some (e,fs') → e.isFile = true →
      resolve fs "./Foo" "/App.jsx" ≠ .file (Path.normalize q) →
      resolve fs' "./Foo" "/App.jsx" = resolve fs "./Foo" "/App.jsx") := by
  intro fs
  exact ⟨by decide,meant_is_first_candidate fs "./Foo" "/App.jsx" (by decide)⟩

example : resolve (.ofFiles [("/Foo.js",""),("/Foo/index.jsx","")]) "./Foo" "/App.jsx" = .file "/Foo.js" := by
  decide +kernel

end Resolution

end PreviewCompiler
