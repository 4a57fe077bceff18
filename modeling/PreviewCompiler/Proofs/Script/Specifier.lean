import PreviewCompiler.Proofs.Script.Agreement
import PreviewCompiler.Proofs.Script.Relabel

namespace PreviewCompiler.Script

open Node

namespace Follows

variable {m m' : Type → Type} [Monad m] [Monad m'] {Q : (α : Type) → m' α → Prop}
  {P : {α : Type} → (α → α) → m' α → m α → Prop} {f' : String → m' (Option String)} {f : String → m (Option String)}

theorem mapString (hP : Follows Q P) (hf : ∀ v, P id (f' v) (f v)) (n : Node) :
    P id (n.mapString f') (n.mapString f) := by
  unfold Node.mapString
  split
  · refine hP.bind (hf _) (fun text => ?_) fun text => ?_
    · cases text <;> exact hP.composes.pure _
    · cases text <;> exact hP.pure rfl
  · exact hP.pure rfl

theorem mapCallSpecifier (hP : Follows Q P) (hf : ∀ v, P id (f' v) (f v)) (n : Node) :
    P id (n.mapCallSpecifier f') (n.mapCallSpecifier f) := by
  unfold Node.mapCallSpecifier
  split
  · exact hP.bind (hP.mapString hf _) (fun _ => hP.composes.pure _) fun _ => hP.pure rfl
  · exact hP.pure rfl

private theorem relabel_id : relabel id = id := funext fun n => relabel_eq_self n fun _ _ => rfl

theorem mapSpecifiers (hP : Follows Q P) (hq : ∀ v, Q (Option String) (f' v)) (hf : ∀ v, P id (f' v) (f v))
    (n : Node) : P id (n.mapSpecifiers f') (n.mapSpecifiers f) := by
  fun_induction Node.mapSpecifiers f n with
  | case1 | case2 | case3 =>
    rw [Node.mapSpecifiers]
    exact hP.bind (hP.mapString hf _) (fun _ => hP.composes.pure _) fun _ => hP.pure rfl
  | case4 | case5 | case6 =>
    rw [Node.mapSpecifiers]
    · exact hP.pure rfl
    · assumption
  | case7 n _ _ _ _ _ _ ih =>
    rw [Node.mapSpecifiers]
    · have htraverse := hP.traverse_relabel (g := id) n (fun part => hP.composes.mapSpecifiers hq part)
        (f := Node.mapSpecifiers f)
      rw [relabel_id] at htraverse
      exact hP.bind (htraverse ih) (fun _ => hP.composes.mapCallSpecifier hq _) fun n' => hP.mapCallSpecifier hf n'
    all_goals assumption

theorem mapM [LawfulMonad m] [LawfulMonad m'] (hP : Follows Q P) {f' : Node → m' Node} {f : Node → m Node}
    (hq : ∀ n, Q Node (f' n)) (hf : ∀ n, P id (f' n) (f n)) (ns : List Node) : P id (ns.mapM f') (ns.mapM f) := by
  induction ns with
  | nil => exact hP.pure rfl
  | cons n ns ih =>
    rw [List.mapM_cons,List.mapM_cons]
    exact hP.bind (hf n) (fun _ => hP.composes.bind (hP.composes.mapM hq ns) fun _ => hP.composes.pure _) fun n' =>
      hP.bind ih (fun _ => hP.composes.pure _) fun ns' => hP.pure rfl

end Follows

namespace Node

/-- The tree with the texts that `f` gives in the places of its specifiers. -/
def withSpecifiers (f : String → Option String) (n : Node) : Node := Id.run (n.mapSpecifiers fun v => pure (f v))

variable {f f' : String → Option String} {g : String → String}

theorem mapCallSpecifier_pure_none (n : Node) :
    Id.run (n.mapCallSpecifier fun _ => (pure none : Id (Option String))) = n := by
  unfold mapCallSpecifier
  split
  · rename_i first args
    cases first with
    | literal s l => cases l <;> rfl
    | _ => rfl
  · rfl

theorem relates_run : Relates (m := Id) fun R x x' => R x.run x'.run where
  pure hR := hR
  bind hx hf := hf _ _ hx

/-- The tree looks as before to a call that it is part of. -/
theorem alike_withSpecifiers (f : String → Option String) (n : Node) : (n.withSpecifiers f).Alike n := by
  have hr := relates_run
  unfold withSpecifiers
  fun_induction Node.mapSpecifiers (m := Id) (fun v => pure (f v)) n with
  | case7 n _ _ _ _ _ _ ih =>
    have htraverse := hr.traverse n ih
    rw [show Id.run (n.traverse fun part _ => part) = n from mapParts_id n] at htraverse
    have hcall : Alike _ (Id.run (n.mapCallSpecifier fun _ => pure none)) :=
      hr.mapCallSpecifier (f := fun v => pure (f v)) (fun _ => trivial) htraverse.1 htraverse.2
    rwa [mapCallSpecifier_pure_none] at hcall
  | _ => exact ⟨rfl,rfl⟩

theorem importArgument?_mapParts_withSpecifiers (f : String → Option String) (n : Node) :
    (n.mapParts (withSpecifiers f)).importArgument? = n.importArgument? := by
  have htraverse : _ ∧ _ = (n.mapParts id).importArgument? :=
    relates_run.traverse n (f := fun part _ => pure (part.withSpecifiers f)) fun part _ => alike_withSpecifiers f part
  rw [mapParts_id] at htraverse
  exact htraverse.2

theorem mapString_relabel {n : Node} (hf : ∀ v, f' v = (f v).map g) (hg : ∀ v, n.stringValue? = some v → g v = v) :
    Id.run ((n.relabel g).mapString fun v => pure (f' v)) =
      relabel g (Id.run (n.mapString fun v => pure (f v))) := by
  cases hv : n.stringValue? with
  | none =>
    have hrelabel : (n.relabel g).stringValue? = none := by
      rw [relabel_eq]
      cases n with
      | literal s l => cases l <;> first | contradiction | rfl
      | _ => rfl
    rw [mapString_eq_pure hv,mapString_eq_pure hrelabel]
    rfl
  | some v =>
    obtain ⟨s,raw,rfl⟩ := stringValue?_eq_some hv
    have hself : (literal s (.string v raw)).relabel g = literal s (.string v raw) := by
      rw [relabel_literal]
      cases raw with
      | none => rw [Literal.relabel,hg v hv]
      | some raw => rfl
    have hmap : ∀ f : String → Option String, Id.run ((literal s (.string v raw)).mapString fun v => pure (f v)) =
        (f v).elim (literal s (.string v raw)) fun text => literal s (.string text none) := fun f => by
      rw [mapString]
      cases f v <;> rfl
    rw [hself,hmap,hmap,hf v]
    cases f v with
    | none => exact hself.symm
    | some text => exact (relabel_literal g s (.string text none)).symm

theorem isSome_importArgument?_relabel (g : String → String) (n : Node) :
    (n.relabel g).importArgument?.isSome = n.importArgument?.isSome := by
  rw [relabel_eq]
  cases n with
  | call s c as =>
    simp only [mapParts,Node.traverse,traverse_list_pure,pure_bind,Id.run_pure,relabelOwn]
    rw [relabel_eq g c]
    cases c <;> cases as <;> rfl
  | _ => rfl

theorem mapCallSpecifier_relabel {n : Node} (hf : ∀ v, f' v = (f v).map g)
    (hg : ∀ v, n.importArgument? = some (some v) → g v = v) :
    Id.run ((n.relabel g).mapCallSpecifier fun v => pure (f' v)) =
      relabel g (Id.run (n.mapCallSpecifier fun v => pure (f v))) := by
  cases hv : n.importArgument? with
  | none =>
    have hrelabel : (n.relabel g).importArgument? = none := by
      rw [← Option.not_isSome_iff_eq_none,isSome_importArgument?_relabel,hv]
      decide
    rw [mapCallSpecifier_eq_pure hv,mapCallSpecifier_eq_pure hrelabel]
    rfl
  | some v =>
    obtain ⟨s,w,first,args,rfl,hfirst⟩ := importArgument?_eq_some hv
    have hcall (first : Node) : (call s (importWord w) (first :: args)).relabel g =
        call s (importWord w) (first.relabel g :: args.map (relabel g)) := by
      rw [relabel_eq]
      simp only [mapParts,Node.traverse,traverse_list_pure,pure_bind,Id.run_pure,relabelOwn,List.map_cons]
      rw [relabel_eq g (importWord w)]
      rfl
    rw [hcall]
    change call s (importWord w)
        (Id.run ((first.relabel g).mapString fun v => pure (f' v)) :: args.map (relabel g)) =
      relabel g (call s (importWord w) (Id.run (first.mapString fun v => pure (f v)) :: args))
    rw [hcall,mapString_relabel hf fun v hv => hg v (congrArg some hv)]

/-- A specifier is not longer than the node that it is in. -/
private theorem source_relabel {source n : Node} (hf : ∀ v, f' v = (f v).map g)
    (hsource : source.relabel g = source) (hsize : sizeOf source < sizeOf n)
    (hg : ∀ v : String, sizeOf v < sizeOf n → g v = v) :
    Id.run (source.mapString fun v => pure (f' v)) = relabel g (Id.run (source.mapString fun v => pure (f v))) := by
  have hmap := mapString_relabel (n := source) hf fun v hv => hg v (by
    obtain ⟨s,raw,rfl⟩ := stringValue?_eq_some hv
    simp at hsize
    omega)
  rwa [hsource] at hmap

theorem sizeOf_lt_of_importArgument? {n : Node} {v : String} (h : n.importArgument? = some (some v)) :
    sizeOf v < sizeOf n := by
  obtain ⟨s,w,first,args,rfl,hfirst⟩ := importArgument?_eq_some h
  obtain ⟨s',raw,rfl⟩ := stringValue?_eq_some hfirst
  simp
  omega

theorem relabel_importDecl (g : String → String) (s : Span) (t : Bool) (specifiers : List Node) (source : Node)
    (facts : Option Node) : (importDecl s t specifiers source facts).relabel g =
      importDecl s t (specifiers.map (relabel g)) (source.relabel g) (facts.map (relabel g)) := by
  rw [relabel_eq]
  simp only [mapParts,Node.traverse,traverse_list_pure,traverse_option_pure,pure_bind,Id.run_pure,relabelOwn]

theorem relabel_exportNamed (g : String → String) (s : Span) (t : Bool) (specifiers : List Node)
    (source facts : Option Node) : (exportNamed s t specifiers source facts).relabel g =
      exportNamed s t (specifiers.map (relabel g)) (source.map (relabel g)) (facts.map (relabel g)) := by
  rw [relabel_eq]
  simp only [mapParts,Node.traverse,traverse_list_pure,traverse_option_pure,pure_bind,Id.run_pure,relabelOwn]

theorem relabel_exportAll (g : String → String) (s : Span) (t : Bool) (source : Node) (facts : Option Node) :
    (exportAll s t source facts).relabel g = exportAll s t (source.relabel g) (facts.map (relabel g)) := by
  rw [relabel_eq]
  simp only [mapParts,Node.traverse,traverse_option_pure,pure_bind,Id.run_pure,relabelOwn]

theorem withSpecifiers_relabel (hf : ∀ v, f' v = (f v).map g) (n : Node)
    (hg : ∀ v : String, sizeOf v < sizeOf n → g v = v) : n.withSpecifiers f' = (n.withSpecifiers f).relabel g := by
  have hself := relabel_eq_self n hg
  unfold withSpecifiers
  fun_induction Node.mapSpecifiers (m := Id) (fun v => pure (f v)) n with
  | case1 s specifiers source facts =>
    rw [mapSpecifiers]
    rw [relabel_importDecl] at hself
    obtain ⟨-,-,hspecifiers,hsource,hfacts⟩ := importDecl.inj hself
    change importDecl s false specifiers (Id.run (source.mapString fun v => pure (f' v))) facts =
      relabel g (importDecl s false specifiers (Id.run (source.mapString fun v => pure (f v))) facts)
    rw [relabel_importDecl,hspecifiers,hfacts,source_relabel hf hsource (by simp; omega) hg]
  | case2 s specifiers source facts =>
    rw [mapSpecifiers]
    rw [relabel_exportNamed] at hself
    obtain ⟨-,-,hspecifiers,hsource,hfacts⟩ := exportNamed.inj hself
    change exportNamed s false specifiers (some (Id.run (source.mapString fun v => pure (f' v)))) facts =
      relabel g (exportNamed s false specifiers (some (Id.run (source.mapString fun v => pure (f v)))) facts)
    rw [relabel_exportNamed,hspecifiers,hfacts,Option.map_some,
      source_relabel hf (Option.some.inj hsource) (by simp; omega) hg]
  | case3 s source facts =>
    rw [mapSpecifiers]
    rw [relabel_exportAll] at hself
    obtain ⟨-,-,hsource,hfacts⟩ := exportAll.inj hself
    change exportAll s false (Id.run (source.mapString fun v => pure (f' v))) facts =
      relabel g (exportAll s false (Id.run (source.mapString fun v => pure (f v))) facts)
    rw [relabel_exportAll,hfacts,source_relabel hf hsource (by simp; omega) hg]
  | case4 | case5 | case6 =>
    rw [mapSpecifiers]
    · exact hself.symm
    · assumption
  | case7 n _ _ _ _ _ _ ih =>
    rw [mapSpecifiers]
    · have htraverse := traverse_relabel (m := Id) (g := g) n (k := mapSpecifiers fun v => pure (f' v))
        (f := mapSpecifiers fun v => pure (f v)) fun part hpart => by
          have hsmall (v : String) (hv : sizeOf v < sizeOf part) : g v = v := hg v (Nat.lt_trans hv hpart)
          rw [relabel_eq_self part hsmall]
          exact ih part hpart hsmall (relabel_eq_self part hsmall)
      rw [hself] at htraverse
      have hcall := mapCallSpecifier_relabel (n := n.mapParts (withSpecifiers f)) hf fun v hv =>
        hg v (sizeOf_lt_of_importArgument? ((importArgument?_mapParts_withSpecifiers f n).symm.trans hv))
      exact (congrArg (fun n : Node => Id.run (n.mapCallSpecifier fun v => pure (f' v))) htraverse).trans hcall
    all_goals assumption

theorem utf8ByteSize_le_sizeOf (s : String) : s.utf8ByteSize ≤ sizeOf s := by
  obtain ⟨⟨⟨bytes⟩⟩,h⟩ := s
  have hbytes : bytes.length ≤ sizeOf bytes := by
    clear h
    induction bytes with
    | nil => exact Nat.zero_le _
    | cons b bytes ih =>
      rw [List.cons.sizeOf_spec,List.length_cons]
      omega
  simp only [String.utf8ByteSize,ByteArray.size,List.size_toArray,String.ofByteArray.sizeOf_spec,
    ByteArray.mk.sizeOf_spec,Array.mk.sizeOf_spec]
  omega

/-- A text that is larger than `k`, for each text. -/
def mark (k : Nat) (v : String) : String := String.ofList (List.replicate k '#') ++ v

/-- The text that a mark is for. -/
def marked? (k : Nat) (w : String) : Option String :=
  if sizeOf w < k then none else some (String.ofList (w.toList.drop k))

theorem le_sizeOf_mark (k : Nat) (v : String) : k ≤ sizeOf (mark k v) := by
  have hfront : k ≤ (String.ofList (List.replicate k '#')).utf8ByteSize := by
    induction k with
    | zero => exact Nat.zero_le _
    | succ k ih =>
      rw [List.replicate_succ,String.ofList_cons,String.utf8ByteSize_append,String.utf8ByteSize_singleton]
      have := Char.utf8Size_pos '#'
      omega
  refine Nat.le_trans ?_ (utf8ByteSize_le_sizeOf _)
  rw [mark,String.utf8ByteSize_append]
  exact Nat.le_trans hfront (Nat.le_add_right _ _)

theorem marked?_mark (k : Nat) (v : String) : marked? k (mark k v) = some v := by
  rw [marked?,if_neg (Nat.not_lt.2 (le_sizeOf_mark k v)),mark,String.toList_append,String.toList_ofList]
  have hlength : (List.replicate k '#').length = k := List.length_replicate
  rw [List.drop_append_of_le_length (Nat.le_of_eq hlength.symm),List.drop_eq_nil_of_le (Nat.le_of_eq hlength),
    List.nil_append,String.ofList_toList]

/-- Texts in the places of the specifiers that `p` holds of are texts in the places of marks. -/
theorem exists_marked (items : List Node) (p : String → Bool) :
    ∃ (marked : List Node) (specifier? : String → Option String), ∀ f : String → Option String,
      (∀ v, (f v).isSome = p v) →
      items.map (withSpecifiers f) = marked.map (relabel fun w => ((specifier? w).bind f).getD w) := by
  refine ⟨items.map (withSpecifiers fun v => if p v then some (mark (sizeOf items) v) else none),
    marked? (sizeOf items),fun f hf => ?_⟩
  rw [List.map_map]
  refine List.map_congr_left fun n hn => withSpecifiers_relabel (fun v => ?_) n fun v hv => ?_
  · cases hv : f v with
    | none => rw [← hf v,hv,Option.isSome_none,if_neg (by decide),Option.map_none]
    | some text =>
      rw [← hf v,hv,Option.isSome_some,if_pos rfl,Option.map_some,marked?_mark,Option.bind_some,hv,Option.getD_some]
  · have hsmall : sizeOf v < sizeOf items := Nat.lt_trans hv (List.sizeOf_lt_of_mem hn)
    simp only [marked?,if_pos hsmall,Option.bind_none,Option.getD_none]

end Node

end PreviewCompiler.Script
