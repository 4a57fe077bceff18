import PreviewCompiler.Proofs.Script.Traversal

namespace PreviewCompiler.Script

/-- Another text in a string that the author did not write. -/
def Literal.relabel (g : String → String) : Literal → Literal
  | .string v none => .string (g v) none
  | l => l

namespace Node

/-- Another text in a node that is itself a string which the author did not write. -/
def relabelOwn (g : String → String) : Node → Node
  | literal s l => literal s (l.relabel g)
  | n => n

/-- The tree with other texts in the strings that the author did not write. -/
def relabel (g : String → String) (n : Node) : Node :=
  relabelOwn g (Id.run (n.traverse fun part _ => pure (relabel g part)))
termination_by sizeOf n

/-- The node with `f` of each part in the place of the part. -/
def mapParts (f : Node → Node) (n : Node) : Node := Id.run (n.traverse fun part _ => pure (f part))

@[simp]
theorem traverse_list_pure {m : Type → Type} [Monad m] [LawfulMonad m] (f : Node → Node) (ns : List Node) :
    Node.traverse.list (m := m) ns (fun part _ => pure (f part)) = pure (ns.map f) := by
  induction ns with
  | nil => rfl
  | cons n ns ih => rw [Node.traverse.list,ih,pure_bind,pure_bind,List.map_cons]

@[simp]
theorem traverse_option_pure {m : Type → Type} [Monad m] [LawfulMonad m] (f : Node → Node) (o : Option Node) :
    Node.traverse.option (m := m) o (fun part _ => pure (f part)) = pure (o.map f) := by
  cases o with
  | none => rfl
  | some n => rw [Node.traverse.option,pure_bind,Option.map_some]

theorem relabel_eq (g : String → String) (n : Node) : n.relabel g = relabelOwn g (n.mapParts (relabel g)) := by
  rw [relabel]
  rfl

theorem mapParts_id (n : Node) : n.mapParts id = n := by
  cases n <;> first
    | rfl
    | simp only [mapParts,Node.traverse,pure_bind,traverse_list_pure,traverse_option_pure,id_eq,List.map_id',
        Option.map_id',Id.run_pure]

theorem relabel_literal (g : String → String) (s : Span) (l : Literal) :
    (literal s l).relabel g = literal s (l.relabel g) := relabel_eq g _

theorem span_relabel (g : String → String) (n : Node) : (n.relabel g).span = n.span := by
  rw [relabel_eq]
  cases n with
  | property k v =>
    change (⟨(k.relabel g).span.lo,(v.relabel g).span.hi⟩ : Span) = _
    rw [span_relabel g k,span_relabel g v]
    rfl
  | spread dots v => exact congrArg (fun s : Span => (⟨dots.lo,s.hi⟩ : Span)) (span_relabel g v)
  | functionDecl _ _ v | classDecl _ _ v => exact span_relabel g v
  | _ => rfl
termination_by sizeOf n

/-- Only a string has a text of its own. -/
theorem relabelOwn_mapParts {n : Node} (h : ∀ s l, n ≠ literal s l) (g : String → String) (f : Node → Node) :
    relabelOwn g (n.mapParts f) = n.mapParts f := by
  cases n with
  | literal s l => exact absurd rfl (h s l)
  | _ => rfl

end Node

open Node

/-- A relation of what is done to two trees, `φ` making the one result of the other, that doing nothing has and that
doing one after another keeps.  It may ask `Q` of what is done to the second tree. -/
structure Follows {m m' : Type → Type} [Monad m] [Monad m'] (Q : (α : Type) → m' α → Prop)
    (P : {α : Type} → (α → α) → m' α → m α → Prop) : Prop where
  composes : Composes Q
  pure : ∀ {α : Type} {φ : α → α} {a a' : α}, a' = φ a → P φ (pure a') (pure a)
  bind : ∀ {α β : Type} {φ : α → α} {ψ : β → β} {x' : m' α} {x : m α} {f' : α → m' β} {f : α → m β},
    P φ x' x → (∀ a', Q β (f' a')) → (∀ a, P ψ (f' (φ a)) (f a)) → P ψ (x' >>= f') (x >>= f)

namespace Follows

variable {m m' : Type → Type} [Monad m] [Monad m'] {Q : (α : Type) → m' α → Prop}
  {P : {α : Type} → (α → α) → m' α → m α → Prop} {g : String → String} {h : Node → Node} {f' : Node → m' Node}
  {f : Node → m Node}

private theorem parts (hP : Follows Q P) (ns : List Node) (hq : ∀ part, Q Node (f' part))
    (hf : ∀ part, sizeOf part < sizeOf ns → P (relabel g) (f' (h part)) (f part)) :
    P (fun ns => Id.run (Node.traverse.list ns fun part _ => Pure.pure (relabel g part)))
      (Node.traverse.list (Id.run (Node.traverse.list ns fun part _ => Pure.pure (h part))) fun part _ => f' part)
      (Node.traverse.list ns fun part _ => f part) := by
  induction ns with
  | nil => exact hP.pure rfl
  | cons n ns ih =>
    refine hP.bind (hf n (by simp +arith)) (fun _ => hP.composes.bind (hP.composes.list _ fun _ _ => hq _) fun _ =>
      hP.composes.pure _) fun n' => hP.bind (ih fun part hp => hf part (Nat.lt_trans hp (by simp +arith)))
        (fun _ => hP.composes.pure _) fun ns' => hP.pure rfl

private theorem optionalPart (hP : Follows Q P) (o : Option Node)
    (hf : ∀ part, sizeOf part < sizeOf o → P (relabel g) (f' (h part)) (f part)) :
    P (fun o => Id.run (Node.traverse.option o fun part _ => Pure.pure (relabel g part)))
      (Node.traverse.option (Id.run (Node.traverse.option o fun part _ => Pure.pure (h part))) fun part _ => f' part)
      (Node.traverse.option o fun part _ => f part) := by
  cases o with
  | none => exact hP.pure rfl
  | some n => exact hP.bind (hf n (by simp +arith)) (fun _ => hP.composes.pure _) fun n' => hP.pure rfl

theorem node (hP : Follows Q P) (n : Node) {n' : Node} (hn : n' = relabelOwn g (n.mapParts (relabel g))) :
    P (relabel g) (Pure.pure n') (Pure.pure n) := hP.pure (hn.trans (relabel_eq g n).symm)

theorem traverse (hP : Follows Q P) {n : Node} (hn : ∀ s l, n ≠ literal s l) (hq : ∀ part, Q Node (f' part))
    (hf : ∀ part, sizeOf part < sizeOf n → P (relabel g) (f' (h part)) (f part)) :
    P (relabel g) ((mapParts h n).traverse fun part _ => f' part) (n.traverse fun part _ => f part) := by
  cases n with
  | literal s l => exact absurd rfl (hn s l)
  | _ =>
    repeat' first
      | exact hP.node _ rfl
      | exact hP.composes.pure _
      | refine hP.bind (hf _ ?_) (fun _ => ?_) fun _ => ?_
      | refine hP.bind (hP.parts _ hq fun part hp => hf part (Nat.lt_trans hp ?_)) (fun _ => ?_) fun _ => ?_
      | refine hP.bind (hP.optionalPart _ fun part hp => hf part (Nat.lt_trans hp ?_)) (fun _ => ?_) fun _ => ?_
      | refine hP.composes.bind (hq _) fun _ => ?_
      | refine hP.composes.bind (hP.composes.list _ fun _ _ => hq _) fun _ => ?_
      | refine hP.composes.bind (hP.composes.option _ fun _ _ => hq _) fun _ => ?_
    all_goals simp +arith

theorem traverse_relabel (hP : Follows Q P) (n : Node) (hq : ∀ part, Q Node (f' part))
    (hf : ∀ part, sizeOf part < sizeOf n → P (relabel g) (f' (relabel g part)) (f part)) :
    P (relabel g) ((relabel g n).traverse fun part _ => f' part) (n.traverse fun part _ => f part) := by
  by_cases hn : ∃ s l, n = literal s l
  · obtain ⟨s,l,rfl⟩ := hn
    rw [relabel_literal]
    exact hP.node _ rfl
  · have hn : ∀ s l, n ≠ literal s l := fun s l heq => hn ⟨s,l,heq⟩
    rw [relabel_eq,relabelOwn_mapParts hn]
    exact hP.traverse hn hq hf

end Follows

/-- Does one effect lead to what `φ` makes of the result of another one, and to nothing else? -/
def Tracks {m : Type → Type} [Monad m] {α : Type} (φ : α → α) (x' x : m α) : Prop := x' = φ <$> x

theorem tracks_id {m : Type → Type} [Monad m] [LawfulMonad m] {α : Type} (x : m α) : Tracks id x x := (id_map x).symm

theorem follows_tracks {m : Type → Type} [Monad m] [LawfulMonad m] :
    Follows (m := m) (fun _ _ => True) fun φ x' x => Tracks φ x' x where
  composes := ⟨fun _ => trivial,fun _ _ => trivial⟩
  pure h := by rw [Tracks,h,map_pure]
  bind hx _ hf := by
    rw [Tracks,show _ = _ from hx,bind_map_left,map_bind]
    exact bind_congr hf

namespace Node

variable {g : String → String}

/-- A traversal of the tree with the other texts. -/
theorem traverse_relabel {m : Type → Type} [Monad m] [LawfulMonad m] {k f : Node → m Node} (n : Node)
    (hf : ∀ part, sizeOf part < sizeOf n → k (part.relabel g) = relabel g <$> f part) :
    ((n.relabel g).traverse fun part _ => k part) = relabel g <$> n.traverse fun part _ => f part :=
  follows_tracks.traverse_relabel n (fun _ => trivial) hf

/-- What is done to one node after the other. -/
theorem mapM_relabel {m : Type → Type} [Monad m] [LawfulMonad m] {f : Node → m Node} {ns : List Node}
    (hf : ∀ n ∈ ns, f (n.relabel g) = relabel g <$> f n) :
    (ns.map (relabel g)).mapM f = List.map (relabel g) <$> ns.mapM f := by
  induction ns with
  | nil => rw [List.map_nil,List.mapM_nil,map_pure,List.map_nil]
  | cons n ns ih =>
    rw [List.map_cons,List.mapM_cons,List.mapM_cons,hf n List.mem_cons_self,
      ih fun n hn => hf n (List.mem_cons_of_mem _ hn),bind_map_left,map_bind]
    refine bind_congr fun n' => ?_
    rw [bind_map_left,map_bind]
    refine bind_congr fun ns' => ?_
    rw [map_pure,List.map_cons]

/-- What is counted or collected from the parts of a tree is the same from the tree with other texts. -/
theorem collect_relabel {σ : Type} (f : Node → σ → σ) (n : Node)
    (h : ∀ part, sizeOf part < sizeOf n → f (part.relabel g) = f part) (s : σ) :
    (((n.relabel g).traverse (m := StateM σ) fun part _ => do
      modify (f part)
      return part).run s).2 =
    ((n.traverse (m := StateM σ) fun part _ => do
      modify (f part)
      return part).run s).2 := by
  rw [traverse_relabel n (f := fun part => do
    modify (f part)
    return part)]
  · rfl
  · intro part hpart
    rw [h part hpart,map_bind]
    rfl

theorem depth_relabel (g : String → String) (n : Node) : (n.relabel g).depth = n.depth := by
  rw [depth,depth]
  exact congrArg (· + 1) <|
    collect_relabel (fun part => max part.depth) n (fun part _ => congrArg max (depth_relabel g part)) 0
termination_by sizeOf n

/-- Texts that are longer than a tree are not in it. -/
theorem relabel_eq_self (n : Node) (h : ∀ v : String, sizeOf v < sizeOf n → g v = v) : n.relabel g = n := by
  by_cases hn : ∃ s l, n = literal s l
  · obtain ⟨s,l,rfl⟩ := hn
    rw [relabel_literal]
    cases l with
    | string v raw =>
      cases raw with
      | none => rw [Literal.relabel,h v (by simp; omega)]
      | some raw => rfl
    | _ => rfl
  · have hn : ∀ s l, n ≠ literal s l := fun s l heq => hn ⟨s,l,heq⟩
    have htraverse : ((n.mapParts id).traverse fun part _ => (pure part : Id Node)) =
        relabel g <$> n.traverse fun part _ => pure part :=
      follows_tracks.traverse hn (fun _ => trivial) fun part hpart => by
        rw [id,Tracks,map_pure,relabel_eq_self part fun v hv => h v (Nat.lt_trans hv hpart)]
    rw [mapParts_id] at htraverse
    have hself : n = n.relabel g := by
      have hid := congrArg Id.run htraverse
      rw [Id.run_map] at hid
      rwa [show Id.run (n.traverse fun part _ => (pure part : Id Node)) = n from mapParts_id n] at hid
    exact hself.symm
termination_by sizeOf n

end Node

/-- The module with other texts in the strings that the author did not write. -/
def Module.relabel (g : String → String) (m : Module) : Module := { m with body := m.body.map (Node.relabel g) }

end PreviewCompiler.Script
