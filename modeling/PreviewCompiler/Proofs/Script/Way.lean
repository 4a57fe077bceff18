import PreviewCompiler.Proofs.Script.Parts
import PreviewCompiler.Proofs.Script.Specifier

/-!
# Ways to the specifiers of a tree

A way down a tree chooses one part at each node.  What new texts in the places of specifiers do to a tree is said of
the nodes at the ends of all ways: the specifiers have the new texts, and every other node has its outline, however
deep it is.  The declarations by which a module imports and exports shield what is inside of them.
-/

namespace PreviewCompiler.Script

namespace Node

/-- The node at the end of a way down, on which each number chooses a part. -/
def at? : List Nat → Node → Option Node
  | [],n => some n
  | i :: way, n => n.parts[i]?.bind (at? way)

/-- Which part is the one by which a node names a module: that behind `from` and in an import for its effect, unless
types alone are meant, and the first argument of a call of `import`. -/
def specifierPart? : Node → Option Nat
  | importDecl _ false specifiers _ _ => some specifiers.length
  | exportNamed _ false specifiers (some _) _ => some specifiers.length
  | exportAll _ false _ _ => some 0
  | call _ (importWord _) (_ :: _) => some 1
  | _ => none

/-- Does a way end at a specifier, a string literal by which a node names a module? -/
inductive Specifier : Node → List Nat → String → Prop
  | own {n part : Node} {i : Nat} {v : String} (hpart : n.parts[i]? = some part) (hi : n.specifierPart? = some i)
      (hv : part.stringValue? = some v) : Specifier n [i] v
  | inside {n part : Node} {i : Nat} {way : List Nat} {v : String} (hpart : n.parts[i]? = some part)
      (h : Specifier part way v) : Specifier n (i :: way) v

/-- Is a node a declaration by which a module imports or exports what others hold? -/
def isLinkDeclaration : Node → Bool
  | importDecl .. | exportNamed .. | exportAll .. => true
  | _ => false

/-- Does a way go through such a declaration, and further than to one of its parts? -/
def isShielded : List Nat → Node → Bool
  | i :: way, n => n.isLinkDeclaration && !way.isEmpty || (n.parts[i]?).any (isShielded way)
  | [],_ => false

variable {n : Node} {way : List Nat} {v : String} {f : String → Option String}

theorem parts_call (s : Span) (callee : Node) (args : List Node) : (call s callee args).parts = callee :: args := by
  simp only [parts_eq,Node.traverse,note_bind,list_note_bind,pure_noted,List.nil_append,List.cons_append]

theorem parts_importDecl (s : Span) (t : Bool) (specifiers : List Node) (source : Node) (facts : Option Node) :
    (importDecl s t specifiers source facts).parts = specifiers ++ source :: facts.toList := by
  simp only [parts_eq,Node.traverse,note_bind,list_note_bind,option_note_bind,pure_noted,List.nil_append,
    List.append_assoc,List.cons_append]

theorem parts_exportNamed (s : Span) (t : Bool) (specifiers : List Node) (source facts : Option Node) :
    (exportNamed s t specifiers source facts).parts = specifiers ++ (source.toList ++ facts.toList) := by
  simp only [parts_eq,Node.traverse,list_note_bind,option_note_bind,pure_noted,List.nil_append,
    List.append_assoc]

theorem parts_exportAll (s : Span) (t : Bool) (source : Node) (facts : Option Node) :
    (exportAll s t source facts).parts = source :: facts.toList := by
  simp only [parts_eq,Node.traverse,note_bind,option_note_bind,pure_noted,List.nil_append,List.cons_append]

theorem parts_eq_nil_of_stringValue? (h : n.stringValue? = some v) : n.parts = [] := by
  obtain ⟨s,raw,rfl⟩ := stringValue?_eq_some h
  rfl

/-- A string literal with the text that `f` gives, if any. -/
def withString (f : String → Option String) (n : Node) : Node := Id.run (n.mapString fun v => pure (f v))

theorem withString_eq_self (h : n.stringValue? = none) : n.withString f = n := by
  rw [withString,mapString_eq_pure h]
  rfl

theorem withString_of_some {s : Span} {raw : Option String} {text : String} (h : f v = some text) :
    (literal s (.string v raw)).withString f = literal s (.string text none) := by
  rw [withString,mapString,h]
  rfl

theorem withString_of_none {s : Span} {raw : Option String} (h : f v = none) :
    (literal s (.string v raw)).withString f = literal s (.string v raw) := by
  rw [withString,mapString,h]
  rfl

/-- A call of `import` with the text that `f` gives, if any, for the module that it names. -/
def withCallSpecifier (f : String → Option String) (n : Node) : Node :=
  Id.run (n.mapCallSpecifier fun v => pure (f v))

theorem withCallSpecifier_call (s w : Span) (first : Node) (args : List Node) :
    (call s (importWord w) (first :: args)).withCallSpecifier f =
      call s (importWord w) (first.withString f :: args) := rfl

theorem withCallSpecifier_eq_self (h : n.importArgument? = none) : n.withCallSpecifier f = n := by
  rw [withCallSpecifier,mapCallSpecifier_eq_pure h]
  rfl

theorem withSpecifiers_importDecl (s : Span) (specifiers : List Node) (source : Node) (facts : Option Node) :
    (importDecl s false specifiers source facts).withSpecifiers f =
      importDecl s false specifiers (source.withString f) facts := by
  rw [withSpecifiers,mapSpecifiers]
  rfl

theorem withSpecifiers_exportNamed (s : Span) (specifiers : List Node) (source : Node) (facts : Option Node) :
    (exportNamed s false specifiers (some source) facts).withSpecifiers f =
      exportNamed s false specifiers (some (source.withString f)) facts := by
  rw [withSpecifiers,mapSpecifiers]
  rfl

theorem withSpecifiers_exportAll (s : Span) (source : Node) (facts : Option Node) :
    (exportAll s false source facts).withSpecifiers f = exportAll s false (source.withString f) facts := by
  rw [withSpecifiers,mapSpecifiers]
  rfl

/-- A declaration of types alone and one that names no module stay as they are. -/
theorem withSpecifiers_of_declaration (h : n.isLinkDeclaration = true) (hnone : n.specifierPart? = none) :
    n.withSpecifiers f = n := by
  cases n with
  | importDecl s t specifiers source facts | exportAll s t source facts =>
    cases t with
    | true =>
      rw [withSpecifiers,mapSpecifiers]
      · rfl
      · intros
        contradiction
    | false => contradiction
  | exportNamed s t specifiers source facts =>
    rw [withSpecifiers,mapSpecifiers]
    · rfl
    · rintro source' rfl rfl
      contradiction
  | _ => contradiction

theorem withSpecifiers_of_other (h : n.isLinkDeclaration = false) :
    n.withSpecifiers f = (n.mapParts (withSpecifiers f)).withCallSpecifier f := by
  rw [withSpecifiers]
  unfold mapSpecifiers
  split <;> first | contradiction | rfl

/-- What the parts of a node become before its own specifier has its new text. -/
def innerParts (f : String → Option String) (n : Node) : List Node :=
  if n.isLinkDeclaration then n.parts else n.parts.map (withSpecifiers f)

theorem specifierPart?_of_importArgument? (h : n.importArgument? = none) (hn : n.isLinkDeclaration = false) :
    n.specifierPart? = none := by
  unfold specifierPart?
  split <;> first | contradiction | rfl

/-- The declarations that name a module. -/
theorem exists_source {i : Nat} (h : n.isLinkDeclaration = true) (hi : n.specifierPart? = some i)
    (f : String → Option String) : ∃ (before after : List Node) (source : Node), before.length = i ∧
      n.parts = before ++ source :: after ∧ (n.withSpecifiers f).parts = before ++ source.withString f :: after ∧
      (n.withSpecifiers f).outline = n.outline := by
  unfold specifierPart? at hi
  split at hi
  · rename_i s specifiers source facts
    refine ⟨specifiers,facts.toList,source,Option.some.inj hi,parts_importDecl ..,?_,?_⟩
    · rw [withSpecifiers_importDecl,parts_importDecl]
    · rw [withSpecifiers_importDecl]
      rfl
  · rename_i s specifiers source facts
    refine ⟨specifiers,facts.toList,source,Option.some.inj hi,parts_exportNamed ..,?_,?_⟩
    · rw [withSpecifiers_exportNamed,parts_exportNamed]
      rfl
    · rw [withSpecifiers_exportNamed]
      rfl
  · rename_i s source facts
    refine ⟨[],facts.toList,source,Option.some.inj hi,parts_exportAll ..,?_,?_⟩
    · rw [withSpecifiers_exportAll,parts_exportAll]
      rfl
    · rw [withSpecifiers_exportAll]
      rfl
  · contradiction
  · contradiction

theorem outline_withSpecifiers (f : String → Option String) (n : Node) : (n.withSpecifiers f).outline = n.outline := by
  cases hn : n.isLinkDeclaration with
  | true =>
    cases hi : n.specifierPart? with
    | none => rw [withSpecifiers_of_declaration hn hi]
    | some i =>
      obtain ⟨-,-,-,-,-,-,houtline⟩ := exists_source hn hi f
      exact houtline
  | false =>
    rw [withSpecifiers_of_other hn,← outline_mapParts (withSpecifiers f) n]
    cases harg : (n.mapParts (withSpecifiers f)).importArgument? with
    | none => rw [withCallSpecifier_eq_self harg]
    | some v =>
      obtain ⟨s,w,first,args,heq,-⟩ := importArgument?_eq_some harg
      rw [heq,withCallSpecifier_call]
      rfl

theorem parts_withSpecifiers (f : String → Option String) (n : Node) :
    (n.withSpecifiers f).parts = match n.specifierPart? with
      | some i => (n.innerParts f).modify i (withString f)
      | none => n.innerParts f := by
  unfold innerParts
  cases hn : n.isLinkDeclaration with
  | true =>
    rw [if_pos rfl]
    cases hi : n.specifierPart? with
    | none => rw [withSpecifiers_of_declaration hn hi]
    | some i =>
      obtain ⟨before,after,source,rfl,hparts,hnew,-⟩ := exists_source hn hi f
      have hlt : before.length < (before ++ source :: after).length := by simp
      simp [hparts,hnew,List.modify_eq_take_cons_drop hlt]
  | false =>
    rw [if_neg (by decide),withSpecifiers_of_other hn,← parts_mapParts]
    cases harg : (n.mapParts (withSpecifiers f)).importArgument? with
    | none =>
      have hself := harg
      rw [importArgument?_mapParts_withSpecifiers] at hself
      rw [withCallSpecifier_eq_self harg,specifierPart?_of_importArgument? hself hn]
    | some v =>
      have hself := harg
      rw [importArgument?_mapParts_withSpecifiers] at hself
      obtain ⟨s,w,first,args,heq,-⟩ := importArgument?_eq_some harg
      obtain ⟨s',w',first',args',rfl,-⟩ := importArgument?_eq_some hself
      rw [heq,withCallSpecifier_call,parts_call,parts_call]
      rfl

/-- What a part becomes: its new specifiers are put in, unless it is shielded, and then its own new text if it is the
specifier of the node. -/
def newPart (f : String → Option String) (n : Node) (i : Nat) (part : Node) : Node :=
  let inner := if n.isLinkDeclaration then part else part.withSpecifiers f
  if n.specifierPart? = some i then inner.withString f else inner

theorem getElem?_parts_withSpecifiers (f : String → Option String) (n : Node) (i : Nat) :
    (n.withSpecifiers f).parts[i]? = n.parts[i]?.map (n.newPart f i) := by
  have hinner : (n.innerParts f)[i]? =
      n.parts[i]?.map fun part => if n.isLinkDeclaration then part else part.withSpecifiers f := by
    unfold innerParts
    cases n.isLinkDeclaration with
    | true => exact Option.map_id'.symm
    | false => exact List.getElem?_map
  rw [parts_withSpecifiers]
  unfold newPart
  cases n.specifierPart? with
  | none =>
    simp only [hinner]
    rfl
  | some j =>
    rw [List.getElem?_modify,hinner,Option.map_eq_map,Option.map_map]
    refine congrArg (fun g => Option.map g n.parts[i]?) (funext fun part => ?_)
    by_cases hij : j = i
    · subst hij
      simp
    · simp [hij]

/-- A string literal is no place for specifiers. -/
theorem withSpecifiers_of_stringValue? (h : n.stringValue? = some v) : n.withSpecifiers f = n := by
  obtain ⟨s,raw,rfl⟩ := stringValue?_eq_some h
  rw [withSpecifiers,mapSpecifiers]
  · rfl
  all_goals
    intros
    contradiction

theorem newPart_of_specifier {i : Nat} {part : Node} (hi : n.specifierPart? = some i)
    (hv : part.stringValue? = some v) : n.newPart f i part = part.withString f := by
  simp only [newPart,if_pos hi,withSpecifiers_of_stringValue? hv,ite_self]

theorem newPart_of_not_specifier {i : Nat} {part : Node}
    (h : n.specifierPart? = some i → part.stringValue? = none) :
    n.newPart f i part = if n.isLinkDeclaration then part else part.withSpecifiers f := by
  by_cases hi : n.specifierPart? = some i
  · have hinner : (if n.isLinkDeclaration then part else part.withSpecifiers f).stringValue? = none := by
      split
      · exact h hi
      · exact (alike_withSpecifiers f part).text.trans (h hi)
    simp only [newPart,if_pos hi,withString_eq_self hinner]
  · simp only [newPart,if_neg hi]

theorem Specifier.ne_nil (h : n.Specifier way v) : way ≠ [] := by
  cases h <;> nofun

theorem Specifier.stringValue?_of_parts (h : n.Specifier way v) : n.stringValue? = none := by
  cases hv : n.stringValue? with
  | none => rfl
  | some w =>
    have hparts := parts_eq_nil_of_stringValue? hv
    cases h <;> simp_all

/-- A way ends at a literal with the text. -/
theorem Specifier.exists_at? (h : n.Specifier way v) : ∃ part, n.at? way = some part ∧ part.stringValue? = some v := by
  induction h with
  | own hpart _ hv => exact ⟨_,by rw [at?,hpart]; rfl,hv⟩
  | inside hpart _ ih =>
    obtain ⟨part,hat,hv⟩ := ih
    exact ⟨part,by rw [at?,hpart]; exact hat,hv⟩

theorem isShielded_cons {i : Nat} {part : Node} (hpart : n.parts[i]? = some part) (hway : way ≠ []) :
    isShielded (i :: way) n = (n.isLinkDeclaration || isShielded way part) := by
  have hempty : way.isEmpty = false := List.isEmpty_eq_false_iff.2 hway
  simp only [isShielded,hpart,hempty,Option.any_some,Bool.not_false,Bool.and_true]

/-- A specifier that is not shielded gets its new text. -/
theorem at?_withSpecifiers_of_specifier (f : String → Option String) (h : n.Specifier way v)
    (hway : isShielded way n = false) : (n.withSpecifiers f).at? way = (n.at? way).map (withString f) := by
  induction h with
  | own hpart hi hv =>
    simp only [at?,getElem?_parts_withSpecifiers,hpart,Option.map_some,Option.bind_some,newPart_of_specifier hi hv]
  | inside hpart hs ih =>
    rw [isShielded_cons hpart hs.ne_nil,Bool.or_eq_false_iff] at hway
    simp only [at?,getElem?_parts_withSpecifiers,hpart,Option.map_some,Option.bind_some,
      newPart_of_not_specifier fun _ => hs.stringValue?_of_parts]
    rw [if_neg (ne_true_of_eq_false hway.1)]
    exact ih hway.2

/-- Everything else stays as it is. -/
theorem outline_at?_withSpecifiers (f : String → Option String)
    (h : ∀ v, n.Specifier way v → isShielded way n = true) :
    ((n.withSpecifiers f).at? way).map outline = (n.at? way).map outline := by
  induction way generalizing n with
  | nil => exact congrArg some (outline_withSpecifiers f n)
  | cons i way ih =>
    simp only [at?,getElem?_parts_withSpecifiers]
    cases hpart : n.parts[i]? with
    | none => rfl
    | some part =>
      simp only [Option.map_some,Option.bind_some]
      by_cases hi : n.specifierPart? = some i ∧ part.stringValue?.isSome
      · obtain ⟨hi,hv⟩ := hi
        obtain ⟨v,hv⟩ := Option.isSome_iff_exists.1 hv
        cases way with
        | nil =>
          have hshielded := h v (.own hpart hi hv)
          simp [isShielded] at hshielded
        | cons j way =>
          have hparts : (part.withString f).parts = [] := by
            obtain ⟨s,raw,rfl⟩ := stringValue?_eq_some hv
            rw [withString,mapString]
            cases f v <;> rfl
          simp only [newPart_of_specifier hi hv,at?,hparts,parts_eq_nil_of_stringValue? hv,List.getElem?_nil,
            Option.bind_none]
      · rw [newPart_of_not_specifier fun hi' => by simpa [hi'] using hi]
        split
        · rfl
        · rename_i hn
          refine ih fun v hs => ?_
          have hshielded := h v (.inside hpart hs)
          rwa [isShielded_cons hpart hs.ne_nil,Bool.eq_false_iff.2 hn,Bool.false_or] at hshielded

/-- The outlines at the ends of all ways are all of a tree. -/
theorem eq_of_outline_at? {n n' : Node} (h : ∀ way, (n.at? way).map outline = (n'.at? way).map outline) :
    n = n' := by
  refine eq_of_outline_of_parts (Option.some.inj (h [])) (List.ext_getElem? fun i => ?_)
  have hi := h [i]
  simp only [at?] at hi
  cases hpart : n.parts[i]? with
  | none => cases hpart' : n'.parts[i]? <;> simp_all
  | some part =>
    cases hpart' : n'.parts[i]? with
    | none => simp_all
    | some part' =>
      have hsize := sizeOf_lt_of_mem_parts (List.mem_of_getElem? hpart)
      refine congrArg some (eq_of_outline_at? fun way => ?_)
      have hway := h (i :: way)
      simpa only [at?,hpart,hpart',Option.bind_some] using hway
termination_by sizeOf n

/-- The text by which a node names a module. -/
def ownSpecifier? (n : Node) : Option String := n.specifierPart?.bind fun i => n.parts[i]?.bind stringValue?

/-- The texts of the specifiers that are not shielded. -/
def specifiers (n : Node) : List String :=
  (if n.isLinkDeclaration then [] else n.parts.attach.flatMap fun part => specifiers part.1) ++ n.ownSpecifier?.toList
termination_by sizeOf n
decreasing_by exact sizeOf_lt_of_mem_parts part.2

theorem specifiers_eq (n : Node) : n.specifiers =
    (if n.isLinkDeclaration then [] else n.parts.flatMap specifiers) ++ n.ownSpecifier?.toList := by
  rw [specifiers]
  congr 1
  split
  · rfl
  · rw [List.flatMap_subtype (g := specifiers) fun _ _ => rfl,List.unattach_attach]

theorem ownSpecifier?_eq_some : n.ownSpecifier? = some v ↔
    ∃ i part, n.parts[i]? = some part ∧ n.specifierPart? = some i ∧ part.stringValue? = some v := by
  simp only [ownSpecifier?,Option.bind_eq_some_iff]
  constructor
  · rintro ⟨i,hi,part,hpart,hv⟩
    exact ⟨i,part,hpart,hi,hv⟩
  · rintro ⟨i,part,hpart,hi,hv⟩
    exact ⟨i,hi,part,hpart,hv⟩

theorem Specifier.mem_specifiers (h : n.Specifier way v) (hway : isShielded way n = false) : v ∈ n.specifiers := by
  induction h with
  | own hpart hi hv =>
    rw [specifiers_eq,ownSpecifier?_eq_some.2 ⟨_,_,hpart,hi,hv⟩]
    exact List.mem_append_right _ List.mem_cons_self
  | inside hpart hs ih =>
    rw [isShielded_cons hpart hs.ne_nil,Bool.or_eq_false_iff] at hway
    rw [specifiers_eq,if_neg (ne_true_of_eq_false hway.1)]
    exact List.mem_append_left _ (List.mem_flatMap.2 ⟨_,List.mem_of_getElem? hpart,ih hway.2⟩)

theorem exists_specifier {n : Node} (h : v ∈ n.specifiers) : ∃ way, n.Specifier way v ∧ isShielded way n = false := by
  rw [specifiers_eq] at h
  rcases List.mem_append.1 h with hinside | hown
  · split at hinside
    · contradiction
    · rename_i hn
      obtain ⟨part,hmem,hv⟩ := List.mem_flatMap.1 hinside
      have hsize := sizeOf_lt_of_mem_parts hmem
      obtain ⟨way,hs,hway⟩ := exists_specifier hv
      obtain ⟨i,hpart⟩ := List.mem_iff_getElem?.1 hmem
      refine ⟨i :: way,.inside hpart hs,?_⟩
      rw [isShielded_cons hpart hs.ne_nil,hway,Bool.eq_false_iff.2 hn,Bool.or_false]
  · obtain ⟨i,part,hpart,hi,hv⟩ := ownSpecifier?_eq_some.1 (Option.mem_toList.1 hown)
    refine ⟨[i],.own hpart hi hv,?_⟩
    simp [isShielded]
termination_by sizeOf n

/-- The specifiers that are not shielded are those of some ways. -/
theorem mem_specifiers : v ∈ n.specifiers ↔ ∃ way, n.Specifier way v ∧ isShielded way n = false :=
  ⟨exists_specifier,fun ⟨_,hs,hway⟩ => hs.mem_specifiers hway⟩

theorem specifiers_of_declaration (h : n.isLinkDeclaration = true) : n.specifiers = n.ownSpecifier?.toList := by
  rw [specifiers_eq,if_pos h,List.nil_append]

theorem specifiers_importDecl (s : Span) (before : List Node) (source : Node) (facts : Option Node) :
    (importDecl s false before source facts).specifiers = source.stringValue?.toList := by
  rw [specifiers_of_declaration rfl,ownSpecifier?,parts_importDecl]
  simp [specifierPart?]

theorem specifiers_exportNamed (s : Span) (before : List Node) (source : Node) (facts : Option Node) :
    (exportNamed s false before (some source) facts).specifiers = source.stringValue?.toList := by
  rw [specifiers_of_declaration rfl,ownSpecifier?,parts_exportNamed]
  simp [specifierPart?]

theorem specifiers_exportAll (s : Span) (source : Node) (facts : Option Node) :
    (exportAll s false source facts).specifiers = source.stringValue?.toList := by
  rw [specifiers_of_declaration rfl,ownSpecifier?,parts_exportAll]
  simp [specifierPart?]

theorem specifiers_of_other (h : n.isLinkDeclaration = false) :
    n.specifiers = n.parts.flatMap specifiers ++ (n.importArgument?.bind id).toList := by
  rw [specifiers_eq,if_neg (ne_true_of_eq_false h)]
  congr 2
  cases harg : n.importArgument? with
  | none => rw [ownSpecifier?,specifierPart?_of_importArgument? harg h,Option.bind_none,Option.bind_none]
  | some v =>
    obtain ⟨s,w,first,args,rfl,rfl⟩ := importArgument?_eq_some harg
    rw [ownSpecifier?,parts_call]
    rfl

end Node

open Node

namespace Visits

variable {m : Type → Type} [Monad m] {P : List String → (α : Type) → (α → Prop) → m α → Prop}
  {f : String → m (Option String)}

theorem mapString (hP : Visits P) (hf : ∀ v, P [v] (Option String) (fun _ => True) (f v)) (n : Node) :
    P n.stringValue?.toList Node (fun _ => True) (n.mapString f) := by
  cases hv : n.stringValue? with
  | none =>
    rw [mapString_eq_pure hv]
    exact hP.pure trivial
  | some v =>
    obtain ⟨s,raw,rfl⟩ := stringValue?_eq_some hv
    change P ([v] ++ []) Node _ _
    refine hP.bind (hf v) fun text _ => ?_
    cases text <;> exact hP.pure trivial

theorem mapCallSpecifier (hP : Visits P) (hf : ∀ v, P [v] (Option String) (fun _ => True) (f v)) {n n' : Node}
    (h : n.Alike n') (harg : n.importArgument? = n'.importArgument?) :
    P (n.importArgument?.bind id).toList Node (Alike n) (n'.mapCallSpecifier f) := by
  cases hv : n.importArgument? with
  | some v =>
    obtain ⟨s,w,first,args,rfl,hfirst⟩ := importArgument?_eq_some hv
    obtain ⟨s',w',first',args',rfl,hfirst'⟩ := importArgument?_eq_some (harg.symm.trans hv)
    have hstring := hP.mapString hf first'
    rw [hfirst'] at hstring
    rw [Option.bind_some,id,← List.append_nil v.toList]
    exact hP.bind hstring fun _ _ => hP.pure ⟨rfl,rfl⟩
  | none =>
    rw [mapCallSpecifier_eq_pure (harg.symm.trans hv)]
    exact hP.pure h

/-- The specifiers that are not shielded are met, and no others. -/
theorem mapSpecifiers (hP : Visits P) (hf : ∀ v, P [v] (Option String) (fun _ => True) (f v)) (n : Node) :
    P n.specifiers Node (Alike n) (n.mapSpecifiers f) := by
  fun_induction Node.mapSpecifiers f n with
  | case1 s before source facts =>
    rw [specifiers_importDecl,← List.append_nil source.stringValue?.toList]
    exact hP.bind (hP.mapString hf source) fun _ _ => hP.pure ⟨rfl,rfl⟩
  | case2 s before source facts =>
    rw [specifiers_exportNamed,← List.append_nil source.stringValue?.toList]
    exact hP.bind (hP.mapString hf source) fun _ _ => hP.pure ⟨rfl,rfl⟩
  | case3 s source facts =>
    rw [specifiers_exportAll,← List.append_nil source.stringValue?.toList]
    exact hP.bind (hP.mapString hf source) fun _ _ => hP.pure ⟨rfl,rfl⟩
  | case4 s t before source facts hother | case6 s t source facts hother =>
    obtain rfl : t = true := Bool.of_not_eq_false hother
    rw [specifiers_of_declaration rfl]
    exact hP.pure ⟨rfl,rfl⟩
  | case5 s t before source facts hother =>
    have hnone : (exportNamed s t before source facts).specifierPart? = none := by
      cases t <;> cases source <;> first | rfl | exact (hother _ rfl rfl).elim
    rw [specifiers_of_declaration rfl,ownSpecifier?,hnone]
    exact hP.pure ⟨rfl,rfl⟩
  | case7 n _ _ _ hdecl hexport hall ih =>
    have hn : n.isLinkDeclaration = false := by
      unfold isLinkDeclaration
      split
      · exact (hdecl _ _ _ _ _ rfl).elim
      · exact (hexport _ _ _ _ _ rfl).elim
      · exact (hall _ _ _ _ rfl).elim
      · rfl
    rw [specifiers_of_other hn]
    exact hP.bind (hP.traverse n ih) fun n' hn' => hP.mapCallSpecifier hf hn'.1 hn'.2

end Visits

end PreviewCompiler.Script
