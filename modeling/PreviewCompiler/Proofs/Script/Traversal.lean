import PreviewCompiler.Script.Specifier

namespace PreviewCompiler.Script

/-- A property of effects that doing nothing has and that doing one after another keeps. -/
structure Composes {m : Type → Type} [Monad m] (P : (α : Type) → m α → Prop) : Prop where
  pure : ∀ {α : Type} (a : α), P α (pure a)
  bind : ∀ {α β : Type} {x : m α} {f : α → m β}, P α x → (∀ a, P β (f a)) → P β (x >>= f)

namespace Composes

variable {m : Type → Type} [Monad m] {P : (α : Type) → m α → Prop}

theorem mapM [LawfulMonad m] (hP : Composes P) {α β : Type} {f : α → m β} (hf : ∀ a, P β (f a))
    (as : List α) : P (List β) (as.mapM f) := by
  induction as with
  | nil => exact hP.pure _
  | cons a as ih =>
    rw [List.mapM_cons]
    exact hP.bind (hf a) fun b => hP.bind ih fun bs => hP.pure _

theorem list (hP : Composes P) (ns : List Node)
    {f : (part : Node) → sizeOf part < sizeOf ns → m Node} (hf : ∀ part h, P Node (f part h)) :
    P (List Node) (Node.traverse.list ns f) := by
  induction ns with
  | nil => exact hP.pure _
  | cons n ns ih =>
    exact hP.bind (hf _ _) fun n' => hP.bind (ih fun part _ => hf part _) fun ns' => hP.pure _

theorem option (hP : Composes P) (o : Option Node)
    {f : (part : Node) → sizeOf part < sizeOf o → m Node} (hf : ∀ part h, P Node (f part h)) :
    P (Option Node) (Node.traverse.option o f) := by
  cases o with
  | none => exact hP.pure _
  | some n => exact hP.bind (hf _ _) fun n' => hP.pure _

theorem traverse (hP : Composes P) (n : Node) {f : (part : Node) → sizeOf part < sizeOf n → m Node}
    (hf : ∀ part h, P Node (f part h)) : P Node (n.traverse f) := by
  cases n <;>
    repeat' first
      | exact hP.pure _
      | exact hf _ _
      | exact hP.list _ fun _ _ => hf _ _
      | exact hP.option _ fun _ _ => hf _ _
      | refine hP.bind ?_ fun _ => ?_

theorem mapString (hP : Composes P) {f : String → m (Option String)} (hf : ∀ s, P (Option String) (f s))
    (n : Node) : P Node (n.mapString f) := by
  unfold Node.mapString
  split
  · refine hP.bind (hf _) fun text => ?_
    split
    · exact hP.pure _
    · exact hP.pure _
  · exact hP.pure _

theorem mapCallSpecifier (hP : Composes P) {f : String → m (Option String)}
    (hf : ∀ s, P (Option String) (f s)) (n : Node) : P Node (n.mapCallSpecifier f) := by
  unfold Node.mapCallSpecifier
  split
  · exact hP.bind (hP.mapString hf _) fun first => hP.pure _
  · exact hP.pure _

theorem mapSpecifiers (hP : Composes P) {f : String → m (Option String)}
    (hf : ∀ s, P (Option String) (f s)) (n : Node) : P Node (n.mapSpecifiers f) := by
  fun_induction Node.mapSpecifiers f n with
  | case1 | case2 | case3 => exact hP.bind (hP.mapString hf _) fun source => hP.pure _
  | case4 | case5 | case6 => exact hP.pure _
  | case7 n _ _ _ _ _ _ ih => exact hP.bind (hP.traverse n ih) fun n' => hP.mapCallSpecifier hf n'

end Composes

end PreviewCompiler.Script
