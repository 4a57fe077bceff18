import PreviewCompiler.Proofs.Compile.Linked
import PreviewCompiler.Proofs.Compile.Placeholder
import PreviewCompiler.Proofs.Compile.Urls

namespace PreviewCompiler

open Data Script

/-- A text between two quotes of a kind. -/
def enclosed (quote : Char) (text : String) : String := quote.toString ++ text ++ quote.toString

theorem toList_enclosed (quote : Char) (text : String) :
    (enclosed quote text).toList = quote :: (text.toList ++ [quote]) := by
  simp [enclosed]

theorem exists_enclosed (text : String) : ∃ quote inner, (quote = '"' ∨ quote = '\'') ∧
    Write.quoted text = enclosed quote inner := by
  refine ⟨if text.toList.count '\'' < text.toList.count '"' then '\'' else '"',_,?_,rfl⟩
  split
  · exact .inr rfl
  · exact .inl rfl

theorem replace_append_enclosed {pattern r front text back : String} {quote : Char} (hne : pattern.toList ≠ [])
    (hquote : quote ∉ pattern.toList) : Text.replace pattern r (front ++ enclosed quote text ++ back) =
      Text.replace pattern r front ++ enclosed quote (Text.replace pattern r text) ++ Text.replace pattern r back := by
  have happend : (front ++ enclosed quote text ++ back).toList =
      front.toList ++ quote :: (text.toList ++ quote :: back.toList) := by
    simp [toList_enclosed]
  rw [← String.toList_inj,Text.replace,happend,Text.replaceFrom_append_cons hne hquote,
    Text.replaceFrom_append_cons hne hquote]
  simp [toList_enclosed,Text.replace]

theorem quote_not_mem {quote : Char} (h : quote = '"' ∨ quote = '\'') (i : Nat) : quote ∉ (placeholder i).toList := by
  intro hmem
  rcases h with rfl | rfl
  · exact (mem_placeholder hmem).elim (by decide) (by decide)
  · exact (mem_placeholder hmem).elim (by decide) (by decide)

theorem substituteFrom_append_enclosed {quote : Char} (h : quote = '"' ∨ quote = '\'') (i : Nat) (targets : List String)
    (front text back : String) : substituteFrom i targets (front ++ enclosed quote text ++ back) =
      substituteFrom i targets front ++ enclosed quote (substituteFrom i targets text) ++
        substituteFrom i targets back := by
  induction targets generalizing i front text back with
  | nil => rfl
  | cons t ts ih =>
    rw [substituteFrom,replace_append_enclosed (placeholder_ne_nil i) (quote_not_mem h i),ih]
    rfl

theorem substituteFrom_empty (i : Nat) (targets : List String) : substituteFrom i targets "" = "" := by
  induction targets generalizing i with
  | nil => rfl
  | cons t ts ih => exact ih (i + 1)

/-- What is between quotes is substituted as if it stood alone. -/
theorem substitute_append_quoted (targets : List String) (front text back : String) :
    substitute (front ++ Write.quoted text ++ back) targets =
      substitute front targets ++ substitute (Write.quoted text) targets ++ substitute back targets := by
  obtain ⟨quote,inner,hquote,htext⟩ := exists_enclosed text
  have halone := substituteFrom_append_enclosed hquote 0 targets "" inner ""
  rw [substituteFrom_empty,String.empty_append,String.append_empty,String.empty_append,String.append_empty] at halone
  rw [htext,substitute,substitute,substitute,substitute,substituteFrom_append_enclosed hquote,halone]

theorem substitute_intercalate (targets : List String) (text : String) (pieces : List String) :
    substitute ((Write.quoted text).intercalate pieces) targets =
      (substitute (Write.quoted text) targets).intercalate (pieces.map (substitute · targets)) := by
  induction pieces with
  | nil =>
    rw [List.map_nil,String.intercalate_nil,String.intercalate_nil]
    exact substituteFrom_empty 0 targets
  | cons piece pieces ih =>
    by_cases hnil : pieces = []
    · subst hnil
      rw [List.map_singleton,String.intercalate_singleton,String.intercalate_singleton]
    · have hmap : pieces.map (substitute · targets) ≠ [] := fun h => hnil (List.map_eq_nil_iff.1 h)
      rw [List.map_cons,String.intercalate_cons_of_ne_nil hnil,String.intercalate_cons_of_ne_nil hmap,
        substitute_append_quoted,ih]

/-- A text is left as it is if it spells no placeholder. -/
theorem substituteFrom_of_free {targets : List String} {i : Nat} {text : String}
    (h : FreeOfPlaceholders (i + targets.length) text) : substituteFrom i targets text = text := by
  induction targets generalizing i with
  | nil => rfl
  | cons t ts ih =>
    have hi : i < i + (t :: ts).length := Nat.lt_add_of_pos_right (Nat.succ_pos _)
    have hreplace : Text.replace (placeholder i) t text = text := Text.replace_of_not_infix (h i hi) t
    rw [substituteFrom,hreplace]
    refine ih fun j hj => h j ?_
    rw [List.length_cons]
    omega

theorem substitute_eq_self_iff {targets : List String} {text : String}
    (htargets : ∀ t ∈ targets, ∀ i < targets.length, Text.Fenced (placeholder i).toList t.toList) :
    substitute text targets = text ↔ FreeOfPlaceholders targets.length text := by
  refine ⟨fun heq i hi => ?_,fun h => substituteFrom_of_free (by rwa [Nat.zero_add])⟩
  have hgone := not_infix_substituteFrom (fun t ht => htargets t ht i hi) 0 text
    (.inl ⟨Nat.zero_le i,by rwa [Nat.zero_add]⟩)
  rwa [show substituteFrom 0 targets text = text from heq] at hgone

/-- With one text in all of its places a sketch is in pieces around them. -/
theorem Script.Sketch.exists_pieces (sketch : Sketch) :
    ∃ pieces : List String, pieces ≠ [] ∧ ∀ text : String, sketch.fill (fun _ => text) = text.intercalate pieces := by
  induction sketch with
  | nil => exact ⟨[""],List.cons_ne_nil _ _,fun text => String.intercalate_singleton.symm⟩
  | cons p ps ih =>
    obtain ⟨pieces,hne,hpieces⟩ := ih
    cases p with
    | fixed s =>
      obtain ⟨piece,pieces,rfl⟩ := List.exists_cons_of_ne_nil hne
      refine ⟨(s ++ piece) :: pieces,List.cons_ne_nil _ _,fun text => ?_⟩
      rw [Sketch.fill,hpieces,String.intercalate_cons_append]
    | slot k =>
      refine ⟨"" :: pieces,List.cons_ne_nil _ _,fun text => ?_⟩
      rw [Sketch.fill,hpieces,String.intercalate_cons_of_ne_nil hne,String.empty_append]

/-- A program with the texts that `write` gives in the places of its specifiers. -/
def Script.Program.withSpecifiers (write : String → Option String) (p : Program) : Program :=
  { p with module := { p.module with
      body := (p.module.body.filter fun n => !Surroundings.namesStyles n).map (Node.withSpecifiers write) } }

/-- The text of a program is in pieces around the places of a specifier, whatever is put in there. -/
theorem Script.Program.exists_pieces (p : Program) (minify : Bool) {write : String → Option String} {v : String}
    (hv : (write v).isSome = true) : ∃ pieces : List String, pieces ≠ [] ∧ ∀ text : String,
      (p.withSpecifiers (Function.update write v (some text))).print minify =
        (Write.quoted text).intercalate pieces := by
  obtain ⟨marked,specifier?,hmarked⟩ := Node.exists_marked (p.module.body.filter fun n => !Surroundings.namesStyles n)
    fun u => (write u).isSome
  let m : Module := { p.module with body := marked }
  obtain ⟨marks,hmarks⟩ := (m.withNaming.regroup p.comments).1.exists_sketch_of_print minify
    (m.withNaming.regroup p.comments).2
  have hmark : ∀ w, ∃ inner : Sketch, inner.IsOf [v] ∧ ∀ text : String,
      Write.quoted (((specifier? w).bind (Function.update write v (some text))).getD w) =
        inner.fill fun _ => Write.quoted text := by
    intro w
    by_cases hw : specifier? w = some v
    · refine ⟨[.slot v],fun k hk => List.mem_singleton.2 (Piece.slot.inj (List.mem_singleton.1 hk)),fun text => ?_⟩
      rw [hw,Option.bind_some,Function.update_self,Option.getD_some,Sketch.fill_slot]
    · refine ⟨[.fixed (Write.quoted (((specifier? w).bind write).getD w))],
        fun k hk => absurd (List.mem_singleton.1 hk) nofun,fun text => ?_⟩
      have hsame : (specifier? w).bind (Function.update write v (some text)) = (specifier? w).bind write := by
        cases hu : specifier? w with
        | none => rfl
        | some u =>
          have hne : u ≠ v := fun h => hw (hu.trans (congrArg some h))
          rw [Option.bind_some,Option.bind_some,Function.update_of_ne hne]
      rw [hsame,Sketch.fill_fixed]
  obtain ⟨sketch,-,hfill⟩ := Sketch.exists_fill hmark marks
  obtain ⟨pieces,hne,hpieces⟩ := sketch.exists_pieces
  refine ⟨pieces,hne,fun text => ?_⟩
  have hsome : ∀ u, (Function.update write v (some text) u).isSome = (write u).isSome := fun u => by
    by_cases hu : u = v
    · rw [hu,Function.update_self,hv]
      rfl
    · rw [Function.update_of_ne hu]
  have hmodule : (p.withSpecifiers (Function.update write v (some text))).module = m.relabel _ :=
    congrArg (fun body => ({ p.module with body } : Module)) (hmarked _ hsome)
  rw [← hpieces,← hfill,Program.print,hmodule,Module.withNaming_relabel,Module.regroup_relabel]
  exact hmarks _

namespace Surroundings

variable {s : Surroundings} {q : PackageSpec} {v : String}

theorem place_of_package (h : s.target? v = some (.package q)) (address : String → Option String) :
    s.place address v = some (s.redirects.urlFor q) := by
  obtain ⟨hurl,hr⟩ := target?_eq_some h
  simp only [place,hurl,hr]
  rfl

/-- Does a program name a package, and is `code` its text with the address of the package at each specifier for it?  The
text is in pieces around these places, whatever stands there; in the code both they and the address have been
substituted. -/
def Imports (s : Surroundings) (program : Program) (minify : Bool) (modules targets : List String) (q : PackageSpec)
    (code : String) : Prop :=
  (∃ n ∈ program.module.body, namesStyles n = false ∧
    ∃ way v, n.Specifier way v ∧ Node.isShielded way n = false ∧ s.target? v = some (.package q)) ∧
  ∀ v, s.target? v = some (.package q) →
    let write := s.place (placeholders modules)
    write v = some (s.redirects.urlFor q) ∧ ∃ pieces : List String, pieces ≠ [] ∧
      (∀ text : String, (program.withSpecifiers (Function.update write v (some text))).print minify =
        (Write.quoted text).intercalate pieces) ∧
      code = (substitute (Write.quoted (s.redirects.urlFor q)) targets).intercalate (pieces.map (substitute · targets))

end Surroundings

namespace Template

open Surroundings

/-- A file that imports a package is a script, and its specifiers for the package have become the address. -/
theorem imports_of_compile {fs : FileSet} {redirects : Redirects} {options : TransformOptions} {path content : String}
    {t : Template} {q : PackageSpec} (h : compile fs redirects options path content = .ok t)
    (hq : q ∈ t.links.packages) (targets : List String) : ∃ (dialect : Dialect) (p : Program),
      SourceKind.ofPath path = .script dialect.types dialect.markup ∧ Program.read dialect content.toList = .ok p ∧
      Imports ⟨path,fs,redirects⟩ (p.lower dialect options) options.minify t.links.modules targets q
        (substitute t.text targets) := by
  cases hkind : SourceKind.ofPath path with
  | style | other =>
    simp only [compile,hkind] at h
    contradiction
  | json =>
    simp only [compile,hkind] at h
    obtain ⟨r,hr,hret⟩ := bind_eq_ok h
    obtain ⟨text,-,rfl⟩ := map_eq_ok hr
    obtain rfl := Except.ok.inj hret
    exact absurd hq List.not_mem_nil
  | script isTyped hasMarkup =>
    cases hblank : Text.allBlank content.toList with
    | true =>
      simp only [compile,hkind,ofScript,hblank] at h
      obtain rfl := Except.ok.inj h
      exact absurd hq List.not_mem_nil
    | false =>
      obtain ⟨p,hread⟩ := exists_read_of_compile hkind hblank h
      obtain ⟨linked,links,hlink,rfl⟩ := (compile_eq_ok_iff hkind hblank hread).1 h
      refine ⟨⟨isTyped,hasMarkup⟩,p,rfl,hread,?_,fun v hv => ?_⟩
      · exact ((specifiers_of_linkProgram _ _ _ _ hlink).2.2.2.2 q).1 hq
      · have hplace := place_of_package hv (placeholders links.modules)
        obtain ⟨pieces,hne,hpieces⟩ := (p.lower ⟨isTyped,hasMarkup⟩ options).exists_pieces options.minify
          (Option.isSome_of_eq_some hplace)
        refine ⟨hplace,pieces,hne,hpieces,?_⟩
        have hself := hpieces (redirects.urlFor q)
        rw [← hplace,Function.update_eq_self] at hself
        rw [program_of_linkProgram hlink,← substitute_intercalate]
        exact congrArg (substitute · targets) hself

end Template

end PreviewCompiler
