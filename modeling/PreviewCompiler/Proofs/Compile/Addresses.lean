import PreviewCompiler.Proofs.Compile.Packages
import PreviewCompiler.Proofs.Script.Grouping
import PreviewCompiler.Proofs.Script.Naming
import PreviewCompiler.Proofs.Script.Printing
import PreviewCompiler.Proofs.Script.Specifier
import Mathlib.Data.List.Infix

namespace PreviewCompiler

open Data Script

namespace Surroundings

/-- The text in the place of a specifier, if any, where `address` gives the addresses of the modules. -/
def place (s : Surroundings) (address : String → Option String) (specifier : String) : Option String :=
  if Resolution.isUrl specifier then none
  else match Resolution.resolve s.files specifier s.importer with
    | .file path => address path
    | .package p => some (s.redirects.urlFor p)
    | .nothing => none

/-- The items of a module with the addresses of the modules that they name. -/
def placeItems (s : Surroundings) (address : String → Option String) (items : List Node) : List Node :=
  (items.filter fun n => !namesStyles n).map (Node.withSpecifiers (s.place address))

end Surroundings

/-- The addresses of some modules. -/
def known (modules : List String) (address : String → String) (path : String) : Option String :=
  if path ∈ modules then some (address path) else none

namespace Linking

/-- A linking step that only adds modules. -/
def Grows (α : Type) (x : Linking α) : Prop := ∀ front, Keeps (fun links => front <+: links.modules) α x

theorem composes_grows : Composes (m := Linking) Grows where
  pure a _ := keeps_pure a
  bind hx hf front := keeps_bind (hx front) fun a => hf a front

/-- A linking step that gives `φ` of what is computed without links, if the modules in the end are the first ones of
`modules`. -/
def Foresees (modules : List String) {α : Type} (φ : α → α) (x : Linking α) (a : Id α) : Prop :=
  ∀ links b links', x links = .ok (b,links') → links'.modules <+: modules → b = φ a.run

theorem follows_foresees (modules : List String) : Follows Grows fun φ x a => Foresees modules φ x a where
  composes := composes_grows
  pure hφ links b links' h _ := (Prod.mk.inj (Except.ok.inj h)).1.symm.trans hφ
  bind hx hq hf links b links' h hlinks := by
    obtain ⟨⟨a',mid⟩,ha,hb⟩ := bind_eq_ok h
    have hmid : mid.modules <+: links'.modules := hq a' mid.modules mid List.prefix_rfl b links' hb
    obtain rfl := hx links a' mid ha (hmid.trans hlinks)
    exact hf _ mid b links' hb hlinks

end Linking

theorem Links.prefix_indexOf (path : String) (links : Links) :
    links.modules <+: (links.indexOf path).2.modules := by
  unfold indexOf
  split
  · exact List.prefix_rfl
  · exact List.prefix_append _ _

/-- The number of a module is that of its first place in the list. -/
theorem Links.idxOf_indexOf (path : String) (links : Links) :
    (links.indexOf path).1 = (links.indexOf path).2.modules.idxOf path ∧ path ∈ (links.indexOf path).2.modules := by
  unfold indexOf
  split
  · rename_i i hi
    obtain ⟨hlt,hfind⟩ := List.findIdx?_eq_some_iff_findIdx_eq.1 hi
    have hidx : links.modules.idxOf path = i := hfind
    exact ⟨hidx.symm,List.idxOf_lt_length_iff.1 (hidx.symm ▸ hlt)⟩
  · rename_i hnone
    have hmem : path ∉ links.modules := fun hmem => by
      have := List.findIdx?_eq_none_iff.1 hnone path hmem
      simp at this
    refine ⟨?_,List.mem_append_right _ List.mem_cons_self⟩
    rw [List.idxOf_append_of_notMem hmem,List.idxOf_cons_self,Nat.add_zero]

namespace Surroundings

variable {s : Surroundings}

theorem grows_link (s : Surroundings) (specifier : String) : Linking.Grows (Option String) (s.link specifier) := by
  have hc := Linking.composes_grows
  unfold link
  split
  · exact hc.pure _
  · split
    · split
      · refine hc.bind (fun front => Linking.keeps_modifyGet fun links hl => ?_) fun i => hc.pure _
        exact hl.trans (Links.prefix_indexOf _ links)
      · exact fun front => Linking.keeps_throw_bind _ _
    · exact hc.bind (fun front => Linking.keeps_modify fun links hl => hl) fun _ => hc.pure _
    · exact fun front => Linking.keeps_throw _

/-- The placeholder of a module among those that are imported. -/
def placeholders (modules : List String) : String → Option String :=
  known modules fun path => placeholder (modules.idxOf path)

theorem foresees_link (s : Surroundings) (modules : List String) (specifier : String) :
    Linking.Foresees modules id (s.link specifier) (pure (s.place (placeholders modules) specifier)) := by
  have hc := Linking.follows_foresees modules
  unfold link place
  split
  · exact hc.pure rfl
  · cases Resolution.resolve s.files specifier s.importer with
    | file path =>
      intro links b links' h hlinks
      by_cases hm : Path.isModule path
      · simp only [if_pos hm] at h
        obtain ⟨hb,hlinks'⟩ : some (placeholder (links.indexOf path).1) = b ∧ (links.indexOf path).2 = links' :=
          Prod.mk.inj (Except.ok.inj h)
        obtain ⟨hindex,hmem⟩ := Links.idxOf_indexOf path links
        rw [hlinks'] at hindex hmem
        have hidx : links'.modules.idxOf path = modules.idxOf path := hlinks.idxOf_eq_of_mem hmem
        rw [← hb,hindex,hidx]
        exact (if_pos (hlinks.mem hmem)).symm
      · simp only [if_neg hm] at h
        contradiction
    | package p =>
      intro links b links' h _
      exact (Prod.mk.inj (Except.ok.inj h)).1.symm
    | nothing =>
      intro links b links' h
      contradiction

theorem kept_of_dropStyleImports {items kept : List Node} (h : s.dropStyleImports items = .ok kept) :
    kept = items.filter fun n => !namesStyles n := by
  induction items generalizing kept with
  | nil => exact (Except.ok.inj h).symm
  | cons n items ih =>
    obtain ⟨b,hb,hrest⟩ := bind_eq_ok h
    obtain ⟨rest,hr,hret⟩ := bind_eq_ok hrest
    obtain rfl := eq_namesStyles_of_isStyleImport hb
    rw [← Except.ok.inj hret,ih hr,List.filter_cons]
    cases namesStyles n <;> rfl

theorem items_of_linkItems {items items' : List Node} {links links' : Links}
    (h : s.linkItems items links = .ok (items',links')) :
    items' = s.placeItems (placeholders links'.modules) items := by
  obtain ⟨⟨kept,mid⟩,hkept,hmap⟩ := bind_eq_ok h
  obtain ⟨kept',hdrop,hret⟩ := bind_eq_ok hkept
  obtain ⟨rfl,rfl⟩ := Prod.mk.inj (Except.ok.inj hret)
  have hc := Linking.follows_foresees links'.modules
  have hitems := hc.mapM (f := Node.mapSpecifiers fun v => pure (s.place (placeholders links'.modules) v))
    (fun n => hc.composes.mapSpecifiers (grows_link s) n) (fun n => hc.mapSpecifiers (grows_link s)
      (foresees_link s links'.modules) n) kept' _ _ _ hmap List.prefix_rfl
  rw [placeItems,← kept_of_dropStyleImports hdrop,hitems]
  exact congrArg Id.run (List.mapM_pure ..)

/-- The program with the addresses of the modules that it names. -/
def placeProgram (s : Surroundings) (address : String → Option String) (p : Program) : Program :=
  { p with module := { p.module with body := s.placeItems address p.module.body } }

theorem program_of_linkProgram {p p' : Program} {links : Links} (h : s.linkProgram p = .ok (p',links)) :
    p' = s.placeProgram (placeholders links.modules) p := by
  obtain ⟨⟨body,links'⟩,hbody,hret⟩ := bind_eq_ok h
  obtain ⟨rfl,rfl⟩ := Prod.mk.inj (Except.ok.inj hret)
  rw [placeProgram,items_of_linkItems hbody]

theorem isSome_place (s : Surroundings) {address address' : String → Option String}
    (h : ∀ path, (address path).isSome = (address' path).isSome) (specifier : String) :
    (s.place address specifier).isSome = (s.place address' specifier).isSome := by
  unfold place
  split
  · rfl
  · cases Resolution.resolve s.files specifier s.importer with
    | file path => exact h path
    | package p => rfl
    | nothing => rfl

theorem isSome_known (modules : List String) (address address' : String → String) (path : String) :
    (known modules address path).isSome = (known modules address' path).isSome := by
  unfold known
  split
  · rfl
  · rfl

theorem exists_sketch_of_place (s : Surroundings) (modules : List String) (specifier w : String) :
    ∃ sketch : Sketch, sketch.IsOf modules ∧ ∀ address : String → String,
      Write.quoted ((s.place (known modules address) specifier).getD w) = sketch.fill (Write.quoted ∘ address) := by
  have hfixed (text : String) : ∃ sketch : Sketch, sketch.IsOf modules ∧ ∀ address : String → String,
      text = sketch.fill (Write.quoted ∘ address) :=
    ⟨[.fixed text],fun _ hk => absurd (List.mem_singleton.1 hk) nofun,fun _ => (Sketch.fill_fixed _ _).symm⟩
  unfold place
  split
  · exact hfixed _
  · cases Resolution.resolve s.files specifier s.importer with
    | package p => exact hfixed (Write.quoted (s.redirects.urlFor p))
    | nothing => exact hfixed (Write.quoted w)
    | file path =>
      by_cases hpath : path ∈ modules
      · simp only [known,if_pos hpath,Option.getD_some]
        refine ⟨[.slot path],fun k hk => ?_,fun address => (Sketch.fill_slot (Write.quoted ∘ address) path).symm⟩
        rwa [Piece.slot.inj (List.mem_singleton.1 hk)]
      · simp only [known,if_neg hpath]
        exact hfixed (Write.quoted w)

/-- A program is written as a sketch with the addresses, quoted, in its places. -/
theorem exists_sketch_of_placeProgram (s : Surroundings) (modules : List String) (p : Program) (minify : Bool) :
    ∃ sketch : Sketch, sketch.IsOf modules ∧ ∀ address : String → String,
      (s.placeProgram (known modules address) p).print minify = sketch.fill (Write.quoted ∘ address) := by
  obtain ⟨marked,specifier?,hmarked⟩ := Node.exists_marked (p.module.body.filter fun n => !namesStyles n)
    fun v => (s.place (known modules id) v).isSome
  let m : Module := { p.module with body := marked }
  obtain ⟨marks,hmarks⟩ := (m.withNaming.regroup p.comments).1.exists_sketch_of_print minify
    (m.withNaming.regroup p.comments).2
  -- The marks stand for specifiers, and these for addresses or for texts that are given.
  obtain ⟨sketch,hof,hfill⟩ := Sketch.exists_fill
    (F := fun (address : String → String) w =>
      Write.quoted (((specifier? w).bind (s.place (known modules address))).getD w))
    (G := fun address => Write.quoted ∘ address) (fun w => by
      cases specifier? w with
      | none => exact exists_sketch_of_place s modules "data:" w
      | some v => exact exists_sketch_of_place s modules v w) marks
  refine ⟨sketch,hof,fun address => ?_⟩
  have hbody := hmarked (s.place (known modules address)) fun v => isSome_place s (isSome_known modules address id) v
  have hmodule : (s.placeProgram (known modules address) p).module = m.relabel _ :=
    congrArg (fun body => ({ p.module with body } : Module)) hbody
  rw [← hfill,Program.print,hmodule,Module.withNaming_relabel,Module.regroup_relabel]
  exact hmarks _

end Surroundings

namespace Template

/-- The text that a script is compiled to if `address` gives the addresses of the modules that it imports. -/
def scriptText (s : Surroundings) (dialect : Dialect) (options : TransformOptions) (content : String)
    (address : String → Option String) : String :=
  let source := content.toList
  if Text.allBlank source then ""
  else
    match Program.read dialect source with
    | .error _ => ""
    | .ok p => (s.placeProgram address (p.lower dialect options)).print options.minify

variable {s : Surroundings} {dialect : Dialect} {options : TransformOptions} {content : String}

theorem text_of_ofScript {text : String} {links : Links} (h : ofScript s dialect options content = .ok (text,links)) :
    text = scriptText s dialect options content (Surroundings.placeholders links.modules) := by
  simp only [ofScript] at h
  unfold scriptText
  by_cases hblank : Text.allBlank content.toList
  · rw [if_pos hblank] at h ⊢
    exact (Prod.mk.inj (Except.ok.inj h)).1.symm
  · rw [if_neg hblank] at h ⊢
    cases hread : Program.read dialect content.toList with
    | error f =>
      rw [hread] at h
      contradiction
    | ok p =>
      rw [hread] at h
      obtain ⟨⟨p',links'⟩,hlink,hret⟩ := bind_eq_ok h
      obtain ⟨rfl,rfl⟩ := Prod.mk.inj (Except.ok.inj hret)
      rw [Surroundings.program_of_linkProgram hlink]

theorem text_of_compile {fs : FileSet} {redirects : Redirects} {path : String} {isTyped hasMarkup : Bool}
    {t : Template} (hkind : SourceKind.ofPath path = .script isTyped hasMarkup)
    (h : compile fs redirects options path content = .ok t) :
    t.text = scriptText ⟨path,fs,redirects⟩ ⟨isTyped,hasMarkup⟩ options content
      (Surroundings.placeholders t.links.modules) := by
  simp only [compile,hkind] at h
  obtain ⟨⟨text,links⟩,htext,hret⟩ := bind_eq_ok h
  obtain rfl := Except.ok.inj hret
  exact text_of_ofScript htext

theorem exists_sketch_of_scriptText (s : Surroundings) (dialect : Dialect) (options : TransformOptions)
    (content : String) (modules : List String) :
    ∃ sketch : Sketch, sketch.IsOf modules ∧ ∀ address : String → String,
      scriptText s dialect options content (known modules address) = sketch.fill (Write.quoted ∘ address) := by
  have hempty : ∃ sketch : Sketch, sketch.IsOf modules ∧ ∀ address : String → String,
      "" = sketch.fill (Write.quoted ∘ address) := ⟨[],fun _ hk => absurd hk List.not_mem_nil,fun _ => rfl⟩
  unfold scriptText
  by_cases hblank : Text.allBlank content.toList
  · simp only [if_pos hblank]
    exact hempty
  · simp only [if_neg hblank]
    cases Program.read dialect content.toList with
    | error f => exact hempty
    | ok p => exact s.exists_sketch_of_placeProgram modules _ _

end Template

end PreviewCompiler
