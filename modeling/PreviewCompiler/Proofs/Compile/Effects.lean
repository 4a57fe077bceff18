import PreviewCompiler.Proofs.Compile.Stylesheets
import PreviewCompiler.Proofs.Compile.Urls
import PreviewCompiler.Proofs.Script.Effects

namespace PreviewCompiler

open Data Script

theorem Resolution.isUrl_of_isLocal {v : String} (h : isLocal v = true) : isUrl v = false :=
  Bool.eq_false_iff.2 fun hurl => absurd h (ne_true_of_eq_false (isLocal_of_isUrl hurl))

namespace Script.Node

/-- An import of nothing gets the new text of its specifier. -/
theorem effect?_withSpecifiers (f : String → Option String) (n : Node) :
    (n.withSpecifiers f).effect? = n.effect?.map fun e => (e.1,(f e.2).getD e.2) := by
  by_cases hn : ∃ span source facts, n = importDecl span false [] source facts
  · obtain ⟨span,source,facts,rfl⟩ := hn
    rw [withSpecifiers_importDecl,effect?,effect?]
    cases hv : source.stringValue? with
    | none => rw [withString_eq_self hv,hv]; rfl
    | some v =>
      obtain ⟨literalSpan,raw,rfl⟩ := stringValue?_eq_some hv
      cases hf : f v with
      | none => rw [withString_of_none hf,hv]; simp [hf]
      | some text => rw [withString_of_some hf]; simp [hf,stringValue?]
  · have hnone : n.effect? = none := Option.eq_none_iff_forall_ne_some.2 fun e he => by
      obtain ⟨source,facts,heq,-⟩ := effect?_eq_some he
      exact hn ⟨_,source,facts,heq⟩
    rw [hnone]
    refine Option.eq_none_iff_forall_ne_some.2 fun e he => ?_
    obtain ⟨source,facts,heq,-⟩ := effect?_eq_some he
    have houtline := outline_withSpecifiers f n
    rw [heq] at houtline
    cases n with
    | importDecl span typeOnly specifiers source' facts' =>
      simp only [outline,mapParts,Node.traverse,traverse_list_pure,traverse_option_pure,pure_bind,
        Id.run_pure] at houtline
      obtain ⟨-,rfl,hspecifiers,-⟩ := importDecl.inj houtline
      rw [List.map_eq_nil_iff.1 hspecifiers.symm] at hn
      exact hn ⟨_,_,_,rfl⟩
    | _ => cases houtline

theorem mem_specifiers_of_effect? {n : Node} {e : Span × String} (h : n.effect? = some e) : e.2 ∈ n.specifiers := by
  obtain ⟨source,facts,rfl,hv⟩ := effect?_eq_some h
  have hown : (importDecl e.1 false [] source facts).ownSpecifier? = some e.2 :=
    ownSpecifier?_eq_some.2 ⟨0,source,by rw [parts_importDecl]; rfl,rfl,hv⟩
  rw [specifiers_of_declaration rfl,hown]
  exact List.mem_singleton_self _

end Script.Node

open Node

namespace Surroundings

variable {s : Surroundings} {n : Node} {e : Span × String} {links : Links} {p p' : Program}

theorem effectSource?_of_effect? (h : n.effect? = some e) : n.effectSource? = some e.2 := by
  obtain ⟨source,facts,rfl,hv⟩ := effect?_eq_some h
  exact hv

theorem namesStyles_of_effect? (h : n.effect? = some e) : namesStyles n = Path.isStylesheet e.2 := by
  obtain ⟨source,facts,rfl,hv⟩ := effect?_eq_some h
  rw [namesStyles,hv]
  rfl

/-- Imports of nothing are dropped for what their specifiers look like. -/
theorem effects_filter (items : List Node) : effects (items.filter fun n => !namesStyles n) =
    (effects items).filter fun e => !Path.isStylesheet e.2 := by
  rw [effects,effects,List.filterMap_filter,List.filter_filterMap]
  refine List.filterMap_congr fun n _ => ?_
  cases he : n.effect? with
  | none => exact ite_self _
  | some e => rw [namesStyles_of_effect? he,Option.filter_some]

theorem effects_placeItems (address : String → Option String) (items : List Node) :
    effects (s.placeItems address items) = ((effects items).filter fun e => !Path.isStylesheet e.2).map fun e =>
      (e.1,(s.place address e.2).getD e.2) := by
  rw [placeItems,← effects_filter,effects,effects,List.filterMap_map,List.map_filterMap]
  exact List.filterMap_congr fun n _ => effect?_withSpecifiers _ n

theorem target?_of_isLocal {v : String} (h : Resolution.isLocal v = true) :
    s.target? v = some (Resolution.resolve s.files v s.importer) :=
  if_neg (ne_true_of_eq_false (Resolution.isUrl_of_isLocal h))

theorem mem_specifiers_of_mem_effects {items : List Node} (he : e ∈ effects items)
    (hstyle : Path.isStylesheet e.2 = false) :
    e.2 ∈ (items.filter fun n => !namesStyles n).flatMap Node.specifiers := by
  obtain ⟨n,hn,heffect⟩ := List.mem_filterMap.1 he
  have hkept : (!namesStyles n) = true := by rw [namesStyles_of_effect? heffect,hstyle]; rfl
  exact List.mem_flatMap.2 ⟨n,List.mem_filter.2 ⟨hn,hkept⟩,mem_specifiers_of_effect? heffect⟩

/-- What an import of nothing in a linked program names is there; it is a module of the links unless the specifier is
written like the path of a stylesheet. -/
theorem exists_resolve_of_effect (h : s.linkProgram p = .ok (p',links)) (he : e ∈ effects p.module.body)
    (hlocal : Resolution.isLocal e.2 = true) : ∃ file, Resolution.resolve s.files e.2 s.importer = .file file ∧
      (Path.isStylesheet e.2 = false → Path.isModule file = true ∧ file ∈ links.modules) := by
  have hok : (s.linkProgram p).isOk = true := by rw [h]; rfl
  obtain ⟨hstyles,hspecifiers⟩ := isOk_linkProgram_iff.1 hok
  have haccount := accounts_of_linkProgram h
  have htarget := target?_of_isLocal (s := s) hlocal
  have hfound : Resolution.resolve s.files e.2 s.importer ≠ .nothing := fun hnothing => by
    cases hstyle : Path.isStylesheet e.2 with
    | true =>
      obtain ⟨n,hn,heffect⟩ := List.mem_filterMap.1 he
      exact hstyles n hn e.2 ⟨effectSource?_of_effect? heffect,hstyle,hnothing⟩
    | false =>
      rw [hnothing] at htarget
      exact haccount.resolved e.2 (mem_specifiers_of_mem_effects he hstyle) htarget
  obtain ⟨file,hfile⟩ := Resolution.exists_file_of_isLocal hlocal hfound
  rw [hfile] at htarget
  refine ⟨file,hfile,fun hstyle => ?_⟩
  have hmem := mem_specifiers_of_mem_effects he hstyle
  have hlink := hspecifiers e.2 hmem
  rw [canLink,htarget] at hlink
  exact ⟨hlink,(haccount.modules file).2 (.inr ⟨e.2,hmem,htarget⟩)⟩

/-- Is an import of nothing what another one becomes if the module that it names has the number of a placeholder? -/
structure LinksEffect (s : Surroundings) (links : Links) (e e' : Span × String) : Prop where
  span : e'.1 = e.1
  text : Resolution.isLocal e.2 = true → ∃ file i, Resolution.resolve s.files e.2 s.importer = .file file ∧
    Path.isModule file = true ∧ links.modules[i]? = some file ∧ e'.2 = placeholder i

/-- Linking drops the imports of nothing that are written like those of stylesheets, and links the others. -/
theorem linksEffect_of_linkProgram (h : s.linkProgram p = .ok (p',links)) :
    List.Forall₂ (s.LinksEffect links) ((effects p.module.body).filter fun e => !Path.isStylesheet e.2)
      (effects p'.module.body) := by
  rw [program_of_linkProgram h,placeProgram,effects_placeItems,List.forall₂_map_right_iff,List.forall₂_same]
  intro e he
  obtain ⟨he,hstyle⟩ := List.mem_filter.1 he
  refine ⟨rfl,fun hlocal => ?_⟩
  obtain ⟨file,hfile,hlinked⟩ := exists_resolve_of_effect h he hlocal
  obtain ⟨hmodule,hmem⟩ := hlinked (by rwa [Bool.not_eq_true'] at hstyle)
  have htarget : s.target? e.2 = some (.file file) := by rw [target?_of_isLocal hlocal,hfile]
  refine ⟨file,links.modules.idxOf file,hfile,hmodule,List.getElem?_idxOf hmem,?_⟩
  rw [place_placeholders htarget hmem]
  rfl

end Surroundings

namespace Template

variable {fs : FileSet} {redirects : Redirects} {options : TransformOptions} {path content : String}
  {isTyped hasMarkup : Bool} {p : Program} {t : Template}

/-- In a script that compiles, the imports of nothing that are dropped are those with a specifier that is written like
the path of a stylesheet; the others stay in their order, and each that names a file is linked to a module.  So one is
dropped exactly if it means a stylesheet, and never if it means a module, unless its specifier is written like the path
of a stylesheet and means another file than the one at this path, or ends in a name that is an extension alone. -/
theorem effects_of_compile (hkind : SourceKind.ofPath path = .script isTyped hasMarkup)
    (hblank : Text.allBlank content.toList = false)
    (hread : Program.read ⟨isTyped,hasMarkup⟩ content.toList = .ok p)
    (ht : compile fs redirects options path content = .ok t) :
    let s : Surroundings := ⟨path,fs,redirects⟩
    let q := p.lower ⟨isTyped,hasMarkup⟩ options
    (effects p.module.body).Sublist (effects q.module.body) ∧
    (∃ q', s.linkProgram q = .ok (q',t.links) ∧ t.text = q'.print options.minify ∧
      List.Forall₂ (s.LinksEffect t.links) ((effects q.module.body).filter fun e => !Path.isStylesheet e.2)
        (effects q'.module.body)) ∧
    ∀ e ∈ effects q.module.body, Resolution.isLocal e.2 = true → ∃ file, Resolution.resolve fs e.2 path = .file file ∧
      (Path.isStylesheet e.2 = false → Path.isModule file = true ∧ file ∈ t.links.modules) ∧
      ((Path.isStylesheet e.2 = true ↔ Path.isStylesheet file = true) ∧
          (Path.isModule file = true → Path.isStylesheet e.2 = false) ↔
        (Path.isStylesheet e.2 = true → file = Resolution.base e.2 path ∧ ¬ Resolution.HidesStyles e.2)) := by
  intro s q
  obtain ⟨q',links,hlink,rfl⟩ := (compile_eq_ok_iff hkind hblank hread).1 ht
  refine ⟨effects_sublist_lower p _ options,⟨q',hlink,rfl,Surroundings.linksEffect_of_linkProgram hlink⟩,
    fun e he hlocal => ?_⟩
  obtain ⟨file,hfile,hlinked⟩ := Surroundings.exists_resolve_of_effect hlink he hlocal
  refine ⟨file,hfile,hlinked,?_⟩
  cases hstyle : Path.isStylesheet e.2 with
  | true =>
    have hmeant := Resolution.isStylesheet_iff_of_resolve hlocal hstyle hfile
    rw [← hmeant]
    refine ⟨fun h _ => h.1.1 rfl,fun h => ⟨iff_of_true rfl (h rfl),fun hmodule => ?_⟩⟩
    exact absurd (h rfl) (ne_true_of_eq_false (Path.isStylesheet_eq_false_of_isModule hmodule))
  | false =>
    have hno := Path.isStylesheet_eq_false_of_isModule (hlinked hstyle).1
    exact iff_of_true ⟨iff_of_false nofun (ne_true_of_eq_false hno),fun _ => rfl⟩ nofun

/-- A stylesheet and a module are imported for their effects, and each specifier means what it is written like. -/
theorem effects_of_compile_of_both :
    let source := "import './a.css';\nimport './b';\n"
    let fs : FileSet := [("/App.js",.file source),("/a.css",.file ""),("/b.js",.file "")]
    SourceKind.ofPath "/App.js" = .script false true ∧ Text.allBlank source.toList = false ∧
    ∃ p t, Program.read ⟨false,true⟩ source.toList = .ok p ∧ compile fs {} {} "/App.js" source = .ok t ∧
      t.links.modules = ["/b.js"] ∧ (effects p.module.body).map Prod.snd = ["./a.css","./b"] ∧
      ∀ e ∈ effects p.module.body, ∃ file, Resolution.resolve fs e.2 "/App.js" = .file file ∧
        (Path.isStylesheet e.2 = true ↔ Path.isStylesheet file = true) := by
  intro source fs
  have hkind : SourceKind.ofPath "/App.js" = .script false true := by decide +kernel
  have hblank : Text.allBlank source.toList = false := by decide +kernel
  obtain ⟨t,ht,hlinks⟩ := exists_eq_ok (x := compile fs {} {} "/App.js" source)
    (p := fun t => decide (t.links.modules = ["/b.js"])) (by decide +kernel)
  obtain ⟨p,hread,heffects⟩ := exists_eq_ok (x := Program.read ⟨false,true⟩ source.toList)
    (p := fun p => decide ((effects p.module.body).map Prod.snd = ["./a.css","./b"])) (by decide +kernel)
  have heffects : (effects p.module.body).map Prod.snd = ["./a.css","./b"] := of_decide_eq_true heffects
  obtain ⟨hall,-,hmeant⟩ := effects_of_compile hkind hblank hread ht
  refine ⟨hkind,hblank,p,t,hread,ht,of_decide_eq_true hlinks,heffects,fun e he => ?_⟩
  have hspecifier : e.2 ∈ ["./a.css","./b"] := heffects ▸ List.mem_map_of_mem he
  have hlocal : Resolution.isLocal e.2 = true :=
    (by decide +kernel : ∀ v ∈ ["./a.css","./b"], Resolution.isLocal v = true) e.2 hspecifier
  obtain ⟨file,hfile,-,hdropped⟩ := hmeant e (hall.subset he) hlocal
  refine ⟨file,hfile,(hdropped.2 fun hstyle => ?_).1⟩
  have hself : Resolution.resolve fs e.2 "/App.js" = .file (Resolution.base e.2 "/App.js") ∧
      ¬ Resolution.HidesStyles e.2 :=
    (by decide +kernel : ∀ v ∈ ["./a.css","./b"], Path.isStylesheet v = true →
      Resolution.resolve fs v "/App.js" = .file (Resolution.base v "/App.js") ∧ ¬ Resolution.HidesStyles v)
      e.2 hspecifier hstyle
  exact ⟨Resolution.file.inj (hfile.symm.trans hself.1),hself.2⟩

/-- A module whose name has the extension of a stylesheet in front of its own is imported for its effect, and nothing is
left of the import. -/
theorem module_dropped_as_styles :
    let source := "import './x.css';\n"
    let fs : FileSet := [("/App.js",.file source),("/x.css.js",.file "globalThis.n = 1;\n")]
    Resolution.isLocal "./x.css" = true ∧ Resolution.resolve fs "./x.css" "/App.js" = .file "/x.css.js" ∧
    Path.isModule "/x.css.js" = true ∧ Path.isStylesheet "/x.css.js" = false ∧
    (∃ p, Program.read ⟨false,true⟩ source.toList = .ok p ∧ (effects p.module.body).map Prod.snd = ["./x.css"]) ∧
    ∃ t, compile fs {} {} "/App.js" source = .ok t ∧ t.text = "" ∧ t.links.modules = [] := by
  intro source fs
  obtain ⟨p,hread,heffects⟩ := exists_eq_ok (x := Program.read ⟨false,true⟩ source.toList)
    (p := fun p => decide ((effects p.module.body).map Prod.snd = ["./x.css"])) (by decide +kernel)
  obtain ⟨t,ht,htext⟩ := exists_eq_ok (x := compile fs {} {} "/App.js" source)
    (p := fun t => decide (t.text = "" ∧ t.links.modules = [])) (by decide +kernel)
  exact ⟨by decide +kernel,by decide +kernel,by decide +kernel,by decide +kernel,
    ⟨p,hread,of_decide_eq_true heffects⟩,t,ht,of_decide_eq_true htext⟩

end Template

end PreviewCompiler
