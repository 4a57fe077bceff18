import PreviewCompiler.Proofs.Script.Relabel
import PreviewCompiler.Script.Grouping

namespace PreviewCompiler.Script

namespace Node

variable {g : String → String}

private theorem paren_relabel (s : Span) (n : Node) : (paren s n).relabel g = paren s (n.relabel g) := relabel_eq g _

private theorem ungroup_of_ne {n : Node} (hn : ∀ s e, n ≠ paren s e) :
    n.ungroup = n.traverse fun part _ => ungroup part := by
  rw [ungroup]
  exact hn

private theorem relabel_ne_paren {n : Node} (hn : ∀ s e, n ≠ paren s e) (s : Span) (e : Node) :
    n.relabel g ≠ paren s e := by
  rw [relabel_eq]
  cases n with
  | paren s' e' => exact absurd rfl (hn s' e')
  | _ => nofun

theorem ungroup_relabel (n : Node) : (n.relabel g).ungroup = relabel g <$> n.ungroup := by
  by_cases hn : ∃ s e, n = paren s e
  · obtain ⟨s,e,rfl⟩ := hn
    rw [paren_relabel,ungroup,ungroup,span_relabel,map_bind,ungroup_relabel e]
  · have hn : ∀ s e, n ≠ paren s e := fun s e heq => hn ⟨s,e,heq⟩
    rw [ungroup_of_ne hn,ungroup_of_ne (relabel_ne_paren hn)]
    exact traverse_relabel n fun part _ => ungroup_relabel part
termination_by sizeOf n

theorem group_relabel (n : Node) : (n.relabel g).group = relabel g <$> n.group := by
  rw [group,group,span_relabel,map_bind]
  refine bind_congr fun dropped => ?_
  cases dropped.lookup n.span with
  | none => exact congrArg pure (paren_relabel _ _).symm
  | some s =>
    rw [map_bind]
    exact bind_congr fun _ => congrArg pure (paren_relabel _ _).symm

theorem groupIf_relabel {condition : Node → Bool} (hc : ∀ n : Node, condition (n.relabel g) = condition n)
    (n : Node) : (n.relabel g).groupIf condition = relabel g <$> n.groupIf condition := by
  rw [groupIf,groupIf,hc]
  split
  · exact group_relabel n
  · rfl

theorem isSequence_relabel (n : Node) : (n.relabel g).isSequence = n.isSequence := by
  rw [relabel_eq]
  cases n <;> rfl

theorem isArrow_relabel (n : Node) : (n.relabel g).isArrow = n.isArrow := by
  rw [relabel_eq]
  cases n <;> rfl

theorem isOpenEnded_relabel (n : Node) : (n.relabel g).isOpenEnded = n.isOpenEnded := by
  rw [relabel_eq]
  cases n <;> rfl

theorem startsStatement_relabel (n : Node) : (n.relabel g).startsStatement = n.startsStatement := by
  rw [relabel_eq]
  cases n <;> rfl

theorem startsDeclaration_relabel (n : Node) : (n.relabel g).startsDeclaration = n.startsDeclaration := by
  rw [relabel_eq]
  cases n <;> rfl

theorem isObject_relabel (n : Node) : (n.relabel g).isObject = n.isObject := by
  rw [relabel_eq]
  cases n <;> rfl

theorem assignsObject_relabel (n : Node) : (n.relabel g).assignsObject = n.assignsObject := by
  rw [relabel_eq]
  cases n with
  | assign s op target v =>
    change (assign s op (target.relabel g) (v.relabel g)).assignsObject = _
    rw [relabel_eq g target]
    cases target <;> rfl
  | _ => rfl

theorem hidesMembers_relabel (n : Node) : (n.relabel g).hidesMembers = n.hidesMembers := by
  rw [relabel_eq]
  cases n with
  | construct s callee as hasArgs => cases hasArgs <;> rfl
  | _ => rfl

theorem hidesCalls_relabel (n : Node) : (n.relabel g).hidesCalls = n.hidesCalls := by
  rw [relabel_eq]
  cases n with
  | construct s callee as hasArgs => cases hasArgs <;> rfl
  | _ => rfl

theorem callsFirst_relabel (n : Node) : (n.relabel g).callsFirst = n.callsFirst := by
  rw [relabel_eq]
  cases n with
  | member s o name => exact callsFirst_relabel o
  | index s o key => exact callsFirst_relabel o
  | tagged s tag q => exact callsFirst_relabel tag
  | _ => rfl
termination_by sizeOf n

theorem groupsRight_relabel (op : String) (n : Node) : groupsRight op (n.relabel g) = groupsRight op n := by
  rw [relabel_eq]
  cases n <;> rfl

theorem groupsLeft_relabel (op : String) (n : Node) : groupsLeft op (n.relabel g) = groupsLeft op n := by
  rw [relabel_eq]
  cases n <;> rfl

theorem groupsOperand_relabel (n : Node) : (n.relabel g).groupsOperand = n.groupsOperand := by
  rw [relabel_eq]
  cases n <;> rfl

theorem atLeftmost_relabel {condition : Node → Bool} (hc : ∀ n : Node, condition (n.relabel g) = condition n)
    {f : Node → Grouping Node} (hf : ∀ n : Node, f (n.relabel g) = relabel g <$> f n) (n : Node) :
    (n.relabel g).atLeftmost condition f = relabel g <$> n.atLeftmost condition f := by
  unfold atLeftmost
  rw [hc]
  by_cases h : condition n
  · rw [if_pos h,if_pos h]
    exact hf n
  · rw [if_neg h,if_neg h,relabel_eq]
    cases n with
    | member s e _ | index s e _ | call s e _ | binary s _ e _ | conditional s e _ _ | assign s _ e _ | tagged s e _
    | chain s _ e =>
      exact follows_tracks.bind (atLeftmost_relabel hc hf e) (fun _ => trivial) fun _ => follows_tracks.node _ rfl
    | update s op leads e =>
      cases leads with
      | false =>
        exact follows_tracks.bind (atLeftmost_relabel hc hf e) (fun _ => trivial) fun _ => follows_tracks.node _ rfl
      | true => exact follows_tracks.node _ rfl
    | sequence s es =>
      cases es with
      | nil => exact follows_tracks.node _ rfl
      | cons e es =>
        exact follows_tracks.bind (atLeftmost_relabel hc hf e) (fun _ => trivial) fun _ => follows_tracks.node _ rfl
    | _ => exact follows_tracks.node _ rfl
termination_by sizeOf n

theorem groupItem_relabel (n : Node) : (n.relabel g).groupItem = relabel g <$> n.groupItem :=
  groupIf_relabel isSequence_relabel n

theorem groupObject_relabel (n : Node) : (n.relabel g).groupObject = relabel g <$> n.groupObject :=
  groupIf_relabel hidesMembers_relabel n

/-- A part that is put in parentheses or not, and the node with it. -/
private theorem tracks_part {x' x : Grouping Node} {k' k : Node → Node} (hx : x' = relabel g <$> x)
    (hk : ∀ n : Node, k' (n.relabel g) = relabelOwn g ((k n).mapParts (relabel g))) :
    Tracks (relabel g) (x' >>= fun n => pure (k' n)) (x >>= fun n => pure (k n)) :=
  follows_tracks.bind hx (fun _ => trivial) fun n => follows_tracks.node _ (hk n)

private theorem tracks_ite {b : Bool} {x' y' x y : Grouping Node} (hx : Tracks (relabel g) x' x)
    (hy : Tracks (relabel g) y' y) : Tracks (relabel g) (if b then x' else y') (if b then x else y) := by
  cases b with
  | false => exact hy
  | true => exact hx

theorem groupParts_relabel (n : Node) : (n.relabel g).groupParts = relabel g <$> n.groupParts := by
  change Tracks _ _ _
  have hitems (ns : List Node) : (ns.map (relabel g)).mapM groupItem = _ :=
    mapM_relabel fun n _ => groupItem_relabel n
  rw [relabel_eq]
  cases n
  case exportDefault s e =>
    change Tracks _ (groupParts (exportDefault s (e.relabel g))) _
    simp only [groupParts,isArrow_relabel,isSequence_relabel]
    exact tracks_ite (tracks_part (group_relabel e) fun _ => rfl) <|
      tracks_part (atLeftmost_relabel startsDeclaration_relabel group_relabel e) fun _ => rfl
  case exprStatement s e =>
    change Tracks _ (groupParts (exprStatement s (e.relabel g))) _
    simp only [groupParts,assignsObject_relabel]
    exact tracks_ite (tracks_part (group_relabel e) fun _ => rfl) <|
      tracks_part (atLeftmost_relabel startsStatement_relabel group_relabel e) fun _ => rfl
  case arrow s a ps b =>
    simp only [mapParts,Node.traverse,pure_bind,Id.run_bind,Id.run_pure,relabelOwn,groupParts,isSequence_relabel,
      assignsObject_relabel]
    exact tracks_ite (tracks_part (group_relabel b) fun _ => rfl) <|
      tracks_part (atLeftmost_relabel isObject_relabel group_relabel b) fun _ => rfl
  case binary s op l r =>
    exact follows_tracks.bind (groupIf_relabel (groupsLeft_relabel op) l) (fun _ => trivial) fun l' =>
      tracks_part (groupIf_relabel (groupsRight_relabel op) r) fun _ => rfl
  case conditional s t y n =>
    exact follows_tracks.bind (groupIf_relabel isOpenEnded_relabel t) (fun _ => trivial) fun t' =>
      follows_tracks.bind (groupIf_relabel isSequence_relabel y) (fun _ => trivial) fun y' =>
        tracks_part (groupIf_relabel isSequence_relabel n) fun _ => rfl
  case unary s op a | await s a =>
    exact tracks_part (groupIf_relabel groupsOperand_relabel a) fun _ => rfl
  case call s c as =>
    simp only [mapParts,Node.traverse,traverse_list_pure,pure_bind,Id.run_pure,relabelOwn,groupParts]
    refine follows_tracks.bind (groupIf_relabel hidesCalls_relabel c) (fun _ => trivial) fun c' => ?_
    refine follows_tracks.bind (hitems as) (fun _ => trivial) fun as' => follows_tracks.node _ ?_
    simp only [mapParts,Node.traverse,traverse_list_pure,pure_bind,Id.run_pure,relabelOwn]
  case construct s c as hasArgs =>
    have hcallee (n : Node) :
        ((n.relabel g).hidesCalls || (n.relabel g).callsFirst) = (n.hidesCalls || n.callsFirst) := by
      rw [hidesCalls_relabel,callsFirst_relabel]
    simp only [mapParts,Node.traverse,traverse_list_pure,pure_bind,Id.run_pure,relabelOwn,groupParts]
    refine follows_tracks.bind (groupIf_relabel hcallee c) (fun _ => trivial) fun c' => ?_
    refine follows_tracks.bind (hitems as) (fun _ => trivial) fun as' => follows_tracks.node _ ?_
    simp only [mapParts,Node.traverse,traverse_list_pure,pure_bind,Id.run_pure,relabelOwn]
  case member s o nm | index s o nm | tagged s o nm =>
    exact tracks_part (groupObject_relabel o) fun _ => rfl
  case classValue s name sup ms =>
    cases sup with
    | none => exact follows_tracks.node _ rfl
    | some sup => exact tracks_part (groupIf_relabel hidesCalls_relabel sup) fun _ => rfl
  case array s es =>
    simp only [mapParts,Node.traverse,traverse_list_pure,pure_bind,Id.run_pure,relabelOwn,groupParts]
    refine follows_tracks.bind (hitems es) (fun _ => trivial) fun es' => follows_tracks.node _ ?_
    simp only [mapParts,Node.traverse,traverse_list_pure,pure_bind,Id.run_pure,relabelOwn]
  case property _ v | spread _ v | assign _ _ _ v | withDefault _ _ v =>
    exact tracks_part (groupItem_relabel v) fun _ => rfl
  case declarator _ _ v | shorthandPattern _ _ v | classField _ _ _ _ v | yield _ _ v =>
    cases v with
    | none => exact follows_tracks.node _ rfl
    | some v => exact tracks_part (groupItem_relabel v) fun _ => rfl
  case forOf s a l r b => exact tracks_part (groupItem_relabel r) fun _ => rfl
  case ifStatement s t y no =>
    change Tracks _ (groupParts (ifStatement s (t.relabel g) (y.relabel g) _)) _
    rw [relabel_eq g y]
    cases y with
    | ifStatement ys yt yy yn =>
      have hblock (y : Node) : (block ys [y]).relabel g = block ys [y.relabel g] := relabel_eq g _
      refine follows_tracks.node _ ?_
      change _ = ifStatement s (t.relabel g) ((block ys [ifStatement ys yt yy yn]).relabel g) _
      rw [hblock,relabel_eq g (ifStatement ..)]
      rfl
    | _ => exact follows_tracks.node _ (congrArg (ifStatement s _ · _) (relabel_eq g _).symm)
  all_goals exact follows_tracks.node _ rfl

/-- Is a node an optional access to what another optional access gives? -/
def continuesChain : Node → Bool
  | chain _ _ (member _ (chain ..) _) | chain _ _ (index _ (chain ..) _) | chain _ _ (call _ (chain ..) _) => true
  | _ => false

private theorem regroup_of_not_continuesChain {n : Node} (hn : n.continuesChain = false) :
    n.regroup = (do (← n.traverse fun part _ => regroup part).groupParts) := by
  rw [regroup]
  all_goals
    rintro _
    intros
    subst_vars
    contradiction

theorem continuesChain_relabel (n : Node) : (n.relabel g).continuesChain = n.continuesChain := by
  rw [relabel_eq]
  cases n with
  | chain s o b =>
    change (chain s o (b.relabel g)).continuesChain = _
    rw [relabel_eq g b]
    cases b with
    | member ms base nm =>
      change (chain s o (member ms (base.relabel g) _)).continuesChain = _
      rw [relabel_eq g base]
      cases base <;> rfl
    | index ms base k =>
      change (chain s o (index ms (base.relabel g) _)).continuesChain = _
      rw [relabel_eq g base]
      cases base <;> rfl
    | call cs base as =>
      change (chain s o (call cs (base.relabel g) _)).continuesChain = _
      rw [relabel_eq g base]
      cases base <;> rfl
    | _ => rfl
  | _ => rfl

private theorem regroup_call (s cs is : Span) (optional o : Bool) (b : Node) (as : List Node) :
    (chain s optional (call cs (chain is o b) as)).regroup = (do
      let base ← (chain is o b).regroup
      return chain s optional (call cs base (← as.mapM fun a => a.regroup >>= groupItem))) := by
  rw [regroup]
  refine bind_congr fun base => ?_
  have hattach : (as.attach.mapM (fun a => a.1.regroup >>= groupItem) : Grouping (List Node)) =
      (as.attach.map (·.1)).mapM (fun a => a.regroup >>= groupItem) := by rw [List.mapM_map]; rfl
  rw [List.attach_map_subtype_val] at hattach
  exact congrArg (· >>= fun as => pure (chain s optional (call cs base as))) hattach

theorem regroup_relabel (n : Node) : (n.relabel g).regroup = relabel g <$> n.regroup := by
  have hchain (s : Span) (o : Bool) (b : Node) : (chain s o b).relabel g = chain s o (b.relabel g) := relabel_eq g _
  cases hn : n.continuesChain with
  | false =>
    rw [regroup_of_not_continuesChain hn,regroup_of_not_continuesChain ((continuesChain_relabel n).trans hn)]
    exact follows_tracks.bind (traverse_relabel n fun part _ => regroup_relabel part) (fun _ => trivial)
      groupParts_relabel
  | true =>
    unfold continuesChain at hn
    split at hn
    case h_1 s optional ms is o b nm =>
      have hmember (o : Node) : (member ms o nm).relabel g = member ms (o.relabel g) (nm.relabel g) := relabel_eq g _
      have ih := regroup_relabel (chain is o b)
      rw [hchain] at ih
      rw [hchain,hmember,hchain,regroup,regroup,ih,bind_map_left,map_bind]
      exact bind_congr fun b' => congrArg pure (by rw [hchain,hmember])
    case h_2 s optional ms is o b k =>
      have hindex (o k : Node) : (index ms o k).relabel g = index ms (o.relabel g) (k.relabel g) := relabel_eq g _
      have ih := regroup_relabel (chain is o b)
      rw [hchain] at ih
      rw [hchain,hindex,hchain,regroup,regroup,ih,bind_map_left,map_bind]
      refine bind_congr fun b' => ?_
      rw [regroup_relabel k,bind_map_left,map_bind]
      exact bind_congr fun k' => congrArg pure (by rw [hchain,hindex])
    case h_3 s optional cs is o b as =>
      have hcall (o : Node) (as : List Node) :
          (call cs o as).relabel g = call cs (o.relabel g) (as.map (relabel g)) := by
        rw [relabel_eq]
        simp only [mapParts,Node.traverse,traverse_list_pure,pure_bind,Id.run_pure,relabelOwn]
      have ih := regroup_relabel (chain is o b)
      have hargs : (as.map (relabel g)).mapM (fun a => a.regroup >>= groupItem) = _ := mapM_relabel fun a ha => by
        rw [regroup_relabel a,bind_map_left,map_bind]
        exact bind_congr groupItem_relabel
      rw [hchain] at ih
      rw [hchain,hcall,hchain,regroup_call,regroup_call,ih,hargs,bind_map_left,map_bind]
      refine bind_congr fun b' => ?_
      rw [bind_map_left,map_bind]
      exact bind_congr fun as' => congrArg pure (by rw [hchain,hcall])
    case h_4 => contradiction
termination_by sizeOf n
decreasing_by
  all_goals subst_vars
  all_goals simp_wf
  all_goals try omega
  all_goals have := List.sizeOf_lt_of_mem ha; omega

end Node

/-- Which parentheses come back does not depend on the texts. -/
theorem Module.regroup_relabel (g : String → String) (m : Module) (comments : Comments) :
    (m.relabel g).regroup comments = ((m.regroup comments).1.relabel g,(m.regroup comments).2) := by
  have hbody : (do
      let body ← (m.relabel g).body.mapM Node.ungroup
      body.mapM Node.regroup : Grouping (List Node)) = List.map (Node.relabel g) <$> (do
      let body ← m.body.mapM Node.ungroup
      body.mapM Node.regroup) := by
    rw [Module.relabel,Node.mapM_relabel fun n _ => Node.ungroup_relabel n,bind_map_left,map_bind]
    exact bind_congr fun body => Node.mapM_relabel fun n _ => Node.regroup_relabel n
  rw [regroup,regroup,hbody]
  rfl

end PreviewCompiler.Script
