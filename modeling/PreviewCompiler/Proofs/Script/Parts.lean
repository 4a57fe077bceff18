import PreviewCompiler.Proofs.Script.Agreement
import PreviewCompiler.Proofs.Script.Relabel

namespace PreviewCompiler.Script

namespace Node

/-- Note a part. -/
def note (part : Node) : StateM (List Node) Node := do
  modify (· ++ [part])
  return part

section Noting

variable {α : Type} (noted : List Node)

theorem parts_eq (n : Node) : n.parts = ((n.traverse fun part _ => note part) []).2 := rfl

theorem pure_noted (a : α) : (pure a : StateM (List Node) α) noted = (a,noted) := rfl

theorem note_bind (part : Node) (f : Node → StateM (List Node) α) :
    (note part >>= f) noted = f part (noted ++ [part]) := rfl

theorem traverse_list_note (ns : List Node) :
    Node.traverse.list ns (fun part _ => note part) noted = (ns,noted ++ ns) := by
  induction ns generalizing noted with
  | nil => exact congrArg (Prod.mk []) (List.append_nil noted).symm
  | cons n ns ih =>
    change (n :: (Node.traverse.list ns (fun part _ => note part) (noted ++ [n])).1,
      (Node.traverse.list ns (fun part _ => note part) (noted ++ [n])).2) = _
    rw [ih (noted ++ [n]),List.append_assoc]
    rfl

theorem list_note_bind (ns : List Node) (f : List Node → StateM (List Node) α) :
    (Node.traverse.list ns (fun part _ => note part) >>= f) noted = f ns (noted ++ ns) := by
  change f (Node.traverse.list ns (fun part _ => note part) noted).1
    (Node.traverse.list ns (fun part _ => note part) noted).2 = _
  rw [traverse_list_note]

theorem option_note_bind (o : Option Node) (f : Option Node → StateM (List Node) α) :
    (Node.traverse.option o (fun part _ => note part) >>= f) noted = f o (noted ++ o.toList) := by
  cases o with
  | none => exact congrArg (f none) (List.append_nil noted).symm
  | some n => rfl

end Noting

theorem parts_mapParts (f : Node → Node) (n : Node) : (n.mapParts f).parts = n.parts.map f := by
  cases n <;> first
    | rfl
    | simp only [mapParts,parts_eq,Node.traverse,traverse_list_pure,traverse_option_pure,pure_bind,Id.run_pure,
        note_bind,list_note_bind,option_note_bind,pure_noted,List.map_append,List.map_cons,List.map_nil,
        List.nil_append,Option.toList_map]

/-- What a node is apart from its parts. -/
def outline (n : Node) : Node := n.mapParts fun _ => hole

theorem outline_mapParts (f : Node → Node) (n : Node) : (n.mapParts f).outline = n.outline := by
  cases n <;> first
    | rfl
    | simp only [mapParts,Node.traverse,traverse_list_pure,traverse_option_pure,pure_bind,Id.run_pure]
      simp only [outline,mapParts,Node.traverse,traverse_list_pure,traverse_option_pure,pure_bind,Id.run_pure,
        List.map_map,Option.map_map,Function.comp_def]

/-- Take the next one of some nodes. -/
def takeNext : StateM (List Node) Node := fun ns => (ns.headD hole,ns.tail)

/-- The node with the next ones of some nodes in the places of its parts. -/
def refill (n : Node) : StateM (List Node) Node := n.traverse fun _ _ => takeNext

section Taking

variable {α : Type} (rest : List Node)

theorem takeNext_bind (n : Node) (f : Node → StateM (List Node) α) : (takeNext >>= f) (n :: rest) = f n rest := rfl

theorem traverse_list_takeNext (ns : List Node) :
    (Node.traverse.list (ns.map fun _ => hole) fun _ _ => takeNext) (ns ++ rest) = (ns,rest) := by
  induction ns with
  | nil => rfl
  | cons n ns ih =>
    change (n :: ((Node.traverse.list (ns.map fun _ => hole) fun _ _ => takeNext) (ns ++ rest)).1,
      ((Node.traverse.list (ns.map fun _ => hole) fun _ _ => takeNext) (ns ++ rest)).2) = _
    rw [ih]

theorem list_takeNext_bind (ns : List Node) (f : List Node → StateM (List Node) α) :
    ((Node.traverse.list (ns.map fun _ => hole) fun _ _ => takeNext) >>= f) (ns ++ rest) = f ns rest := by
  change f ((Node.traverse.list (ns.map fun _ => hole) fun _ _ => takeNext) (ns ++ rest)).1
    ((Node.traverse.list (ns.map fun _ => hole) fun _ _ => takeNext) (ns ++ rest)).2 = _
  rw [traverse_list_takeNext]

theorem option_takeNext_bind (o : Option Node) (f : Option Node → StateM (List Node) α) :
    ((Node.traverse.option (o.map fun _ => hole) fun _ _ => takeNext) >>= f) (o.toList ++ rest) = f o rest := by
  cases o with
  | none => rfl
  | some n => rfl

/-- An outline takes back the parts of its node. -/
theorem refill_outline (n : Node) : n.outline.refill (n.parts ++ rest) = (n,rest) := by
  cases n <;> first
    | rfl
    | simp only [outline,mapParts,parts_eq,Node.traverse,traverse_list_pure,traverse_option_pure,pure_bind,
        Id.run_pure,note_bind,list_note_bind,option_note_bind,pure_noted,List.append_assoc,List.cons_append,
        List.nil_append]
      simp only [refill,Node.traverse,list_takeNext_bind,option_takeNext_bind,takeNext_bind,pure_noted]

end Taking

/-- A node is its outline together with its parts. -/
theorem eq_of_outline_of_parts {n n' : Node} (houtline : n.outline = n'.outline) (hparts : n.parts = n'.parts) :
    n = n' := by
  have h := refill_outline [] n
  rw [houtline,hparts,refill_outline] at h
  exact (Prod.mk.inj h).1.symm

end Node

open Node

/-- A relation of what is met on the way and the effects of it, given what is true of the result: doing nothing meets
nothing, and doing one after another meets one after another. -/
structure Visits {ι : Type} {m : Type → Type} [Monad m]
    (P : List ι → (α : Type) → (α → Prop) → m α → Prop) : Prop where
  pure : ∀ {α : Type} {R : α → Prop} {a : α}, R a → P [] α R (pure a)
  bind : ∀ {α β : Type} {R : α → Prop} {S : β → Prop} {is is' : List ι} {x : m α} {f : α → m β}, P is α R x →
    (∀ a, R a → P is' β S (f a)) → P (is ++ is') β S (x >>= f)

namespace Visits

variable {ι : Type} {m : Type → Type} [Monad m] {P : List ι → (α : Type) → (α → Prop) → m α → Prop}
  {met : Node → List ι}

theorem mapM [LawfulMonad m] (hP : Visits P) {f : Node → m Node} {R : Node → Node → Prop}
    (hf : ∀ n, P (met n) Node (R n) (f n)) (ns : List Node) :
    P (ns.flatMap met) (List Node) (fun _ => True) (ns.mapM f) := by
  induction ns with
  | nil => exact hP.pure trivial
  | cons n ns ih =>
    rw [List.mapM_cons,List.flatMap_cons,← List.append_nil (ns.flatMap met)]
    exact hP.bind (hf n) fun n' _ => hP.bind ih fun ns' _ => hP.pure trivial

private theorem parts (hP : Visits P) (ns : List Node) {f : (part : Node) → sizeOf part < sizeOf ns → m Node}
    (hf : ∀ part h, P (met part) Node (Alike part) (f part h)) :
    P (ns.flatMap met) (List Node) (List.Forall₂ Alike ns) (Node.traverse.list ns f) := by
  induction ns with
  | nil => exact hP.pure .nil
  | cons n ns ih =>
    rw [List.flatMap_cons,← List.append_nil (ns.flatMap met)]
    exact hP.bind (hf _ _) fun n' hn => hP.bind (ih fun part _ => hf part _) fun ns' hns => hP.pure (.cons hn hns)

private theorem optionalPart (hP : Visits P) (o : Option Node)
    {f : (part : Node) → sizeOf part < sizeOf o → m Node} (hf : ∀ part h, P (met part) Node (Alike part) (f part h)) :
    P (o.toList.flatMap met) (Option Node) (fun _ => True) (Node.traverse.option o f) := by
  cases o with
  | none => exact hP.pure trivial
  | some n => exact hP.bind (hf _ _) fun n' _ => hP.pure trivial

/-- What is met at the parts is met in their order. -/
theorem traverse (hP : Visits P) (n : Node) {f : (part : Node) → sizeOf part < sizeOf n → m Node}
    (hf : ∀ part h, P (met part) Node (Alike part) (f part h)) :
    P (n.parts.flatMap met) Node (fun a => n.Alike a ∧ n.importArgument? = a.importArgument?) (n.traverse f) := by
  suffices h : ∃ is, P is Node (fun a => n.Alike a ∧ n.importArgument? = a.importArgument?) (n.traverse f) ∧
      is = n.parts.flatMap met by
    obtain ⟨is,his,rfl⟩ := h
    exact his
  cases n with
  | call s callee args =>
    refine ⟨met callee ++ (args.flatMap met ++ []),?_,?_⟩
    · exact hP.bind (hf _ _) fun c hc => hP.bind (hP.parts _ fun _ _ => hf _ _) fun as has =>
        hP.pure ⟨⟨rfl,rfl⟩,importArgument?_congr hc has⟩
    · simp only [parts_eq,Node.traverse,note_bind,list_note_bind,pure_noted,List.flatMap_append,List.flatMap_cons,
        List.flatMap_nil,List.nil_append,List.append_nil]
  | _ =>
    apply Exists.intro
    apply And.intro
    case left =>
      repeat' first
        | exact hP.pure ⟨⟨rfl,rfl⟩,rfl⟩
        | exact hf _ _
        | exact hP.parts _ fun _ _ => hf _ _
        | exact hP.optionalPart _ fun _ _ => hf _ _
        | (apply hP.bind ?_ fun _ _ => ?_)
    case right =>
      simp only [parts_eq,Node.traverse,note_bind,list_note_bind,option_note_bind,pure_noted,List.flatMap_append,
        List.flatMap_cons,List.flatMap_nil,List.nil_append,List.append_nil,List.append_assoc]

end Visits

/-- The parts of a node are smaller than it. -/
theorem Node.sizeOf_lt_of_mem_parts {n part : Node} (h : part ∈ n.parts) : sizeOf part < sizeOf n := by
  have hP : Visits (m := Id) fun (parts : List Node) _ R x => R x.run ∧ ∀ part ∈ parts, sizeOf part < sizeOf n :=
    { pure := fun hR => ⟨hR,fun _ hpart => absurd hpart List.not_mem_nil⟩
      bind := fun hx hf => ⟨(hf _ hx.1).1,fun part hpart =>
        (List.mem_append.1 hpart).elim (hx.2 part) ((hf _ hx.1).2 part)⟩ }
  have hpart : ∀ part : Node, sizeOf part < sizeOf n → part.Alike part ∧ ∀ q ∈ [part], sizeOf q < sizeOf n :=
    fun part hlt => ⟨⟨rfl,rfl⟩,fun q hq => by rwa [List.mem_singleton.1 hq]⟩
  have htraverse := hP.traverse n (f := fun part _ => pure part) hpart
  rw [List.flatMap_singleton'] at htraverse
  exact htraverse.2 part h

end PreviewCompiler.Script
