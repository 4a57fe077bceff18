import PreviewCompiler.Proofs.Script.Traversal
import Mathlib.Data.List.Forall2

namespace PreviewCompiler.Script

namespace Node

/-- Is a node the word `import`, as what is called? -/
def isImportWord : Node → Bool
  | importWord _ => true
  | _ => false

/-- What a call of `import` has as its first argument, as far as it is a text. -/
def importArgument? : Node → Option (Option String)
  | call _ (importWord _) (first :: _) => some first.stringValue?
  | _ => none

/-- Do two nodes look the same to a call that they are parts of? -/
structure Alike (n n' : Node) : Prop where
  text : n.stringValue? = n'.stringValue?
  word : n.isImportWord = n'.isImportWord

theorem isImportWord_eq_true {n : Node} (h : n.isImportWord = true) : ∃ w, n = importWord w := by
  unfold isImportWord at h
  split at h
  · exact ⟨_,rfl⟩
  · contradiction

theorem stringValue?_eq_some {n : Node} {v : String} (h : n.stringValue? = some v) :
    ∃ s raw, n = literal s (.string v raw) := by
  unfold stringValue? at h
  split at h
  · obtain rfl := Option.some.inj h
    exact ⟨_,_,rfl⟩
  · contradiction

theorem importArgument?_eq_some {n : Node} {v : Option String} (h : n.importArgument? = some v) :
    ∃ s w first args, n = call s (importWord w) (first :: args) ∧ first.stringValue? = v := by
  unfold importArgument? at h
  split at h
  · exact ⟨_,_,_,_,rfl,Option.some.inj h⟩
  · contradiction

theorem mapString_eq_pure {m : Type → Type} [Monad m] {f : String → m (Option String)} {n : Node}
    (h : n.stringValue? = none) : n.mapString f = pure n := by
  unfold mapString
  split
  · contradiction
  · rfl

theorem mapCallSpecifier_eq_pure {m : Type → Type} [Monad m] {f : String → m (Option String)} {n : Node}
    (h : n.importArgument? = none) : n.mapCallSpecifier f = pure n := by
  unfold mapCallSpecifier
  split
  · contradiction
  · rfl

theorem importArgument?_congr {s s' : Span} {callee callee' : Node} {args args' : List Node}
    (h : callee.Alike callee') (hargs : List.Forall₂ Alike args args') :
    (call s callee args).importArgument? = (call s' callee' args').importArgument? := by
  cases hw : callee.isImportWord with
  | true =>
    obtain ⟨w,rfl⟩ := isImportWord_eq_true hw
    obtain ⟨w',rfl⟩ := isImportWord_eq_true (h.word.symm.trans hw)
    cases hargs with
    | nil => rfl
    | cons hfirst _ => exact congrArg some hfirst.text
  | false =>
    have hnone : ∀ {s : Span} {callee : Node} {args : List Node}, callee.isImportWord = false →
        (call s callee args).importArgument? = none := by
      intro s callee args hw
      unfold importArgument?
      split
      · rename_i heq
        obtain ⟨-,rfl,-⟩ := call.inj heq
        contradiction
      · rfl
    rw [hnone hw,hnone (h.word.symm.trans hw)]

end Node

open Node

/-- A relation of effects, given one of their results, that doing nothing has and that doing one after another
keeps. -/
structure Relates {m : Type → Type} [Monad m] (P : {α : Type} → (α → α → Prop) → m α → m α → Prop) :
    Prop where
  pure : ∀ {α : Type} {R : α → α → Prop} {a a' : α}, R a a' → P R (pure a) (pure a')
  bind : ∀ {α β : Type} {R : α → α → Prop} {S : β → β → Prop} {x x' : m α} {f f' : α → m β}, P R x x' →
    (∀ a a', R a a' → P S (f a) (f' a')) → P S (x >>= f) (x' >>= f')

namespace Relates

variable {m : Type → Type} [Monad m] {P : {α : Type} → (α → α → Prop) → m α → m α → Prop}

theorem mapM [LawfulMonad m] (hP : Relates P) {α β : Type} {R : β → β → Prop} {f f' : α → m β}
    (hf : ∀ a, P R (f a) (f' a)) (as : List α) : P (List.Forall₂ R) (as.mapM f) (as.mapM f') := by
  induction as with
  | nil => exact hP.pure .nil
  | cons a as ih =>
    rw [List.mapM_cons,List.mapM_cons]
    exact hP.bind (hf a) fun b b' hb => hP.bind ih fun bs bs' hbs => hP.pure (.cons hb hbs)

private theorem parts (hP : Relates P) (ns : List Node)
    {f f' : (part : Node) → sizeOf part < sizeOf ns → m Node} (hf : ∀ part h, P Alike (f part h) (f' part h)) :
    P (List.Forall₂ Alike) (Node.traverse.list ns f) (Node.traverse.list ns f') := by
  induction ns with
  | nil => exact hP.pure .nil
  | cons n ns ih =>
    exact hP.bind (hf _ _) fun a a' ha =>
      hP.bind (ih fun part _ => hf part _) fun as as' has => hP.pure (.cons ha has)

private theorem optionalPart (hP : Relates P) (o : Option Node)
    {f f' : (part : Node) → sizeOf part < sizeOf o → m Node} (hf : ∀ part h, P Alike (f part h) (f' part h)) :
    P (fun _ _ => True) (Node.traverse.option o f) (Node.traverse.option o f') := by
  cases o with
  | none => exact hP.pure trivial
  | some n => exact hP.bind (hf _ _) fun a a' _ => hP.pure trivial

theorem traverse (hP : Relates P) (n : Node) {f f' : (part : Node) → sizeOf part < sizeOf n → m Node}
    (hf : ∀ part h, P Alike (f part h) (f' part h)) :
    P (fun a a' => a.Alike a' ∧ a.importArgument? = a'.importArgument?) (n.traverse f) (n.traverse f') := by
  cases n with
  | call s callee args =>
    exact hP.bind (hf _ _) fun c c' hc => hP.bind (hP.parts _ fun _ _ => hf _ _) fun as as' has =>
      hP.pure ⟨⟨rfl,rfl⟩,importArgument?_congr hc has⟩
  | _ =>
    repeat' first
      | exact hP.pure ⟨⟨rfl,rfl⟩,rfl⟩
      | refine hP.bind (hf _ _) fun _ _ _ => ?_
      | refine hP.bind (hP.parts _ fun _ _ => hf _ _) fun _ _ _ => ?_
      | refine hP.bind (hP.optionalPart _ fun _ _ => hf _ _) fun _ _ _ => ?_

theorem mapString (hP : Relates P) {f f' : String → m (Option String)}
    (hf : ∀ s, P (fun _ _ => True) (f s) (f' s)) {n n' : Node} (h : n.stringValue? = n'.stringValue?) :
    P (fun _ _ => True) (n.mapString f) (n'.mapString f') := by
  cases hv : n.stringValue? with
  | some v =>
    obtain ⟨s,raw,rfl⟩ := stringValue?_eq_some hv
    obtain ⟨s',raw',rfl⟩ := stringValue?_eq_some (h.symm.trans hv)
    refine hP.bind (hf v) fun text text' _ => ?_
    cases text <;> cases text' <;> exact hP.pure trivial
  | none =>
    rw [mapString_eq_pure hv,mapString_eq_pure (h.symm.trans hv)]
    exact hP.pure trivial

theorem mapCallSpecifier (hP : Relates P) {f f' : String → m (Option String)}
    (hf : ∀ s, P (fun _ _ => True) (f s) (f' s)) {n n' : Node} (h : n.Alike n')
    (harg : n.importArgument? = n'.importArgument?) :
    P Alike (n.mapCallSpecifier f) (n'.mapCallSpecifier f') := by
  cases hv : n.importArgument? with
  | some v =>
    obtain ⟨s,w,first,args,rfl,hfirst⟩ := importArgument?_eq_some hv
    obtain ⟨s',w',first',args',rfl,hfirst'⟩ := importArgument?_eq_some (harg.symm.trans hv)
    exact hP.bind (hP.mapString hf (hfirst.trans hfirst'.symm)) fun _ _ _ => hP.pure ⟨rfl,rfl⟩
  | none =>
    rw [mapCallSpecifier_eq_pure hv,mapCallSpecifier_eq_pure (harg.symm.trans hv)]
    exact hP.pure h

/-- What is put in the places of the specifiers makes no difference for what is done at the others. -/
theorem mapSpecifiers (hP : Relates P) {f f' : String → m (Option String)}
    (hf : ∀ s, P (fun _ _ => True) (f s) (f' s)) (n : Node) :
    P Alike (n.mapSpecifiers f) (n.mapSpecifiers f') := by
  -- The declarations whose specifier is visited, those that stay as they are, and all other nodes.
  fun_induction Node.mapSpecifiers f n with
  | case1 | case2 | case3 =>
    rw [Node.mapSpecifiers]
    exact hP.bind (hP.mapString hf rfl) fun _ _ _ => hP.pure ⟨rfl,rfl⟩
  | case4 | case5 | case6 =>
    rw [Node.mapSpecifiers]
    · exact hP.pure ⟨rfl,rfl⟩
    · assumption
  | case7 n _ _ _ _ _ _ ih =>
    rw [Node.mapSpecifiers]
    · exact hP.bind (hP.traverse n ih) fun a a' ⟨ha,harg⟩ => hP.mapCallSpecifier hf ha harg
    all_goals assumption

end Relates

end PreviewCompiler.Script
