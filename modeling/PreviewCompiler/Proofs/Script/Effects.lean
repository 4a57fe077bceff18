import PreviewCompiler.Script.Compile

namespace PreviewCompiler.Script

namespace Node

variable {σ : Type}

/-- Where an import of nothing stands and what it names. -/
def effect? : Node → Option (Span × String)
  | importDecl span false [] source _ => source.stringValue?.map (span,·)
  | _ => none

theorem effect?_eq_some {n : Node} {e : Span × String} (h : n.effect? = some e) :
    ∃ source facts, n = importDecl e.1 false [] source facts ∧ source.stringValue? = some e.2 := by
  unfold effect? at h
  split at h
  · rename_i span source facts
    obtain ⟨v,hv,rfl⟩ := Option.map_eq_some_iff.1 h
    exact ⟨source,facts,rfl,hv⟩
  · contradiction

theorem stringValue?_traverse (n : Node) (f : (part : Node) → sizeOf part < sizeOf n → StateM σ Node) (s : σ) :
    (n.traverse f s).1.stringValue? = n.stringValue? := by
  cases n <;> rfl

/-- A traversal that keeps strings keeps an import of nothing. -/
theorem effect?_traverse (n : Node) {f : (part : Node) → sizeOf part < sizeOf n → StateM σ Node}
    (hf : ∀ part h s, (f part h s).1.stringValue? = part.stringValue?) (s : σ) :
    (n.traverse f s).1.effect? = n.effect? := by
  cases n with
  | importDecl span typeOnly specifiers source facts =>
    cases typeOnly with
    | true => rfl
    | false =>
      cases specifiers with
      | nil => exact congrArg (Option.map (span,·)) (hf source _ s)
      | cons first specifiers => rfl
  | _ => rfl

theorem stringValue?_mapIdents (f : Ident → Ident) (n : Node) : (n.mapIdents f).stringValue? = n.stringValue? := by
  cases n <;> rfl

theorem effect?_mapIdents (f : Ident → Ident) (n : Node) : (n.mapIdents f).effect? = n.effect? := by
  cases n <;> rfl

/-- Names are resolved in the parts of a node and then in itself. -/
theorem exists_resolve_eq (scopes : Scopes) (n : Node) (k : Nat) : ∃ (inner : Scopes) (k' : Nat) (f : Ident → Ident),
    (n.resolve scopes k).1 = (n.traverse (fun part _ => part.resolve inner) k').1.mapIdents f := by
  rw [resolve]
  cases n.ownIdents? with
  | none => exact ⟨_,_,_,rfl⟩
  | some ids => exact ⟨_,_,_,rfl⟩

theorem stringValue?_resolve (scopes : Scopes) (n : Node) (k : Nat) :
    (n.resolve scopes k).1.stringValue? = n.stringValue? := by
  obtain ⟨inner,k',f,h⟩ := exists_resolve_eq scopes n k
  rw [h,stringValue?_mapIdents,stringValue?_traverse]

theorem effect?_resolve (scopes : Scopes) (n : Node) (k : Nat) : (n.resolve scopes k).1.effect? = n.effect? := by
  obtain ⟨inner,k',f,h⟩ := exists_resolve_eq scopes n k
  rw [h,effect?_mapIdents,effect?_traverse n fun part _ => stringValue?_resolve inner part]

theorem exists_call_of_element (span : Span) (name : Node) (attributes children : List Node) (l : Lowering) :
    ∃ callee args, (Lowering.element span name attributes children l).1 = call span callee args := by
  obtain ⟨runtime,importSource,factory,fragment,needs,comments⟩ := l
  cases runtime with
  | classic => exact ⟨_,_,rfl⟩
  | automatic =>
    rw [Lowering.element]
    cases hkey : keyBehindSpread attributes with
    | true => exact ⟨_,_,rfl⟩
    | false => cases hseveral : Lowering.isSeveral children <;> exact ⟨_,_,rfl⟩

theorem exists_call_of_fragmentCall (span : Span) (children : List Node) (l : Lowering) :
    ∃ callee args, (Lowering.fragmentCall span children l).1 = call span callee args := by
  obtain ⟨runtime,importSource,factory,fragment,needs,comments⟩ := l
  cases runtime with
  | classic => exact ⟨_,_,rfl⟩
  | automatic =>
    rw [Lowering.fragmentCall]
    cases hseveral : Lowering.isSeveral children <;> exact ⟨_,_,rfl⟩

/-- Strings and imports of nothing are no markup. -/
theorem keeps_lower (n : Node) (l : Lowering) :
    (Lowering.lower n l).1.stringValue? = n.stringValue? ∧ (Lowering.lower n l).1.effect? = n.effect? := by
  unfold Lowering.lower
  split
  · exact keeps_lower _ l
  · exact keeps_lower _ l
  · have hparts := effect?_traverse n (fun part _ l => (keeps_lower part l).1) l
    rw [← stringValue?_traverse n (fun part _ => Lowering.lower part) l,← hparts]
    simp only [bind,StateT.bind]
    obtain ⟨node,l'⟩ := n.traverse (fun part _ => Lowering.lower part) l
    dsimp only
    split
    · obtain ⟨callee,args,h⟩ := exists_call_of_element _ _ _ _ l'
      rw [h]
      exact ⟨rfl,rfl⟩
    · obtain ⟨callee,args,h⟩ := exists_call_of_fragmentCall _ _ l'
      rw [h]
      exact ⟨rfl,rfl⟩
    · exact ⟨rfl,rfl⟩
termination_by sizeOf n

/-- The imports of nothing among some items. -/
def effects (items : List Node) : List (Span × String) := items.filterMap effect?

theorem effects_append (items items' : List Node) : effects (items ++ items') = effects items ++ effects items' :=
  List.filterMap_append

theorem effects_mapM {f : Node → StateM σ Node} (hf : ∀ n s, (f n s).1.effect? = n.effect?) (items : List Node)
    (s : σ) : effects ((items.mapM f).run s).1 = effects items := by
  induction items generalizing s with
  | nil => rfl
  | cons n items ih =>
    have hcons : (((n :: items).mapM f).run s).1 = (f n s).1 :: ((items.mapM f).run (f n s).2).1 := by
      rw [List.mapM_cons]
      rfl
    have hrest := ih (f n s).2
    simp only [effects] at hrest
    simp only [hcons,effects,List.filterMap_cons,hf n s,hrest]

/-- What replaces items keeps their imports of nothing if it keeps each of them. -/
theorem effects_sublist_filterMap {f : Node → Option Node}
    (hf : ∀ n e, n.effect? = some e → ∃ n', f n = some n' ∧ n'.effect? = some e) (items : List Node) :
    (effects items).Sublist (effects (items.filterMap f)) := by
  induction items with
  | nil => exact .slnil
  | cons n items ih =>
    cases he : n.effect? with
    | none =>
      have hcons : effects (n :: items) = effects items := List.filterMap_cons_none he
      rw [hcons,List.filterMap_cons]
      split
      · exact ih
      · rename_i n' _
        exact ih.trans ((List.sublist_cons_self n' _).filterMap effect?)
    | some e =>
      obtain ⟨n',hn',he'⟩ := hf n e he
      have hcons : effects (n :: items) = e :: effects items := List.filterMap_cons_some he
      have hcons' : effects (n' :: items.filterMap f) = e :: effects (items.filterMap f) :=
        List.filterMap_cons_some he'
      rw [List.filterMap_cons_some hn',hcons,hcons']
      exact ih.cons_cons e

end Node

open Node

theorem effects_resolve (m : Module) : effects m.resolve.body = effects m.body :=
  effects_mapM (effect?_resolve _) m.body _

/-- Types are not imported for effects. -/
theorem effects_sublist_erase (m : Module) : (effects m.body).Sublist (effects m.erase.body) := by
  have hitems := effects_sublist_filterMap (f := (Declarations.ofItems m.body).eraseItem?) (fun n e he => by
    obtain ⟨source,facts,rfl,-⟩ := effect?_eq_some he
    exact ⟨_,rfl,he⟩) m.body
  refine hitems.trans ?_
  rw [Module.erase,restoreModule]
  dsimp only
  split
  · split
    · exact .refl _
    · rw [effects_append]
      exact List.sublist_append_left _ _
  · exact .refl _

/-- Functions that create elements are imported by name. -/
theorem effects_runtimeImports (l : Lowering) : effects l.runtimeImports = [] := by
  obtain ⟨runtime,importSource,factory,fragment,⟨jsx,jsxs,createElement,fragments⟩,comments⟩ := l
  cases jsx <;> cases jsxs <;> cases fragments <;> cases createElement <;> rfl

theorem effects_lowerMarkup (m : Module) (runtime : MarkupRuntime) (importSource : String) (comments : Comments) :
    effects (m.lowerMarkup runtime importSource comments).1.body = effects m.body := by
  have hitems := effects_mapM (fun n l => (keeps_lower n l).2) m.body
    (Lowering.ofModule runtime importSource comments m)
  rw [← hitems,Module.lowerMarkup]
  obtain ⟨body,l⟩ := (m.body.mapM Lowering.lower).run (Lowering.ofModule runtime importSource comments m)
  dsimp only
  have hbody : body.takeWhile Lowering.isDirective ++
      body.drop (body.takeWhile Lowering.isDirective).length = body :=
    List.prefix_iff_eq_append.1 (List.takeWhile_prefix _)
  rw [effects_append,effects_append,effects_runtimeImports,List.append_nil,← effects_append,hbody]

/-- A program that is freed from types and markup still imports all that it imported for effects. -/
theorem effects_sublist_lower (p : Program) (dialect : Dialect) (options : TransformOptions) :
    (effects p.module.body).Sublist (effects (p.lower dialect options).module.body) := by
  have herase : (effects p.module.body).Sublist
      (effects (if dialect.types then p.module.resolve.erase else p.module.resolve).body) := by
    rw [← effects_resolve]
    split
    · exact effects_sublist_erase _
    · exact .refl _
  rw [Program.lower]
  dsimp only
  split
  · rw [effects_lowerMarkup]
    exact herase
  · exact herase

end PreviewCompiler.Script
