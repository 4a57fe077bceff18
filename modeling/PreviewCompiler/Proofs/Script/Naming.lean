import PreviewCompiler.Proofs.Script.Relabel
import PreviewCompiler.Script.Naming
import Mathlib.Logic.Basic

namespace PreviewCompiler.Script

namespace Node

variable {g : String → String}

theorem boundIdents_relabel (n : Node) : (n.relabel g).boundIdents = n.boundIdents := by
  fun_induction boundIdents n with
  | case2 s es ih | case3 s es ih =>
    unfold relabel
    simp only [Node.traverse,traverse_list_pure,pure_bind,Id.run_pure,relabelOwn,boundIdents]
    rw [List.attach_map_val (f := boundIdents),List.attach_map_val (f := boundIdents),List.map_map]
    exact congrArg List.flatten (List.map_congr_left ih)
  | case8 n =>
    unfold relabel
    cases n <;> simp_all [Node.traverse,relabelOwn,boundIdents]
  | _ =>
    unfold relabel
    simp_all [Node.traverse,relabelOwn,boundIdents]

theorem declaredIdents_relabel (ns : List Node) : declaredIdents (ns.map (relabel g)) = declaredIdents ns := by
  rw [declaredIdents,declaredIdents,List.flatMap_map]
  refine congrArg (List.flatMap · ns) (funext fun n => ?_)
  rw [relabel_eq]
  cases n with
  | declarator s t i => exact boundIdents_relabel t
  | _ => rfl

theorem flatMap_relabel {α : Type} {f : Node → List α} (h : ∀ n : Node, f (n.relabel g) = f n)
    (ns : List Node) : (ns.map (relabel g)).flatMap f = ns.flatMap f := by
  rw [List.flatMap_map]
  exact congrArg (List.flatMap · ns) (funext h)

/-- Does a declaration with `var` below a node belong to the node, or is the node one? -/
def holdsVars : Node → Bool
  | function .. | arrow .. | classValue .. | variableDecl _ .var .. => true
  | _ => false

theorem hoistedIdents_of_not_holdsVars {n : Node} (h : n.holdsVars = false) : n.hoistedIdents =
    ((n.traverse (m := StateM (List Ident)) fun part _ => do
      modify (· ++ hoistedIdents part)
      return part).run []).2 := by
  rw [hoistedIdents]
  all_goals
    rintro _
    intros
    subst_vars
    contradiction

theorem holdsVars_relabel (n : Node) : (n.relabel g).holdsVars = n.holdsVars := by
  rw [relabel_eq]
  cases n with
  | variableDecl s kind d ds => cases kind <;> rfl
  | _ => rfl

theorem hoistedIdents_relabel (n : Node) : (n.relabel g).hoistedIdents = n.hoistedIdents := by
  cases hv : n.holdsVars with
  | false =>
    rw [hoistedIdents_of_not_holdsVars hv,hoistedIdents_of_not_holdsVars ((holdsVars_relabel n).trans hv)]
    exact collect_relabel (fun part ids => ids ++ part.hoistedIdents) n
      (fun part _ => funext fun ids => congrArg (ids ++ ·) (hoistedIdents_relabel part)) []
  | true =>
    unfold holdsVars at hv
    split at hv
    case h_4 s d ds =>
      unfold relabel
      simp only [Node.traverse,traverse_list_pure,pure_bind,Id.run_pure,relabelOwn,hoistedIdents,
        declaredIdents_relabel]
    case h_5 => contradiction
    all_goals
      unfold relabel
      simp only [Node.traverse,traverse_list_pure,traverse_option_pure,pure_bind,Id.run_pure,relabelOwn,hoistedIdents]
termination_by sizeOf n

theorem importedIdent?_relabel (n : Node) : (n.relabel g).importedIdent? = n.importedIdent? := by
  rw [relabel_eq]
  cases n <;> rfl

theorem lexicalIdents_relabel (n : Node) : (n.relabel g).lexicalIdents = n.lexicalIdents := by
  cases n with
  | variableDecl s kind d ds =>
    unfold relabel
    simp only [Node.traverse,traverse_list_pure,pure_bind,relabelOwn]
    cases kind with
    | var => rfl
    | «let» | const => exact declaredIdents_relabel ds
  | exportDecl s d | exportDefaultDecl s d =>
    rw [relabel_eq]
    exact lexicalIdents_relabel d
  | importDecl s t specifiers source facts =>
    unfold relabel
    simp only [Node.traverse,traverse_list_pure,traverse_option_pure,pure_bind,relabelOwn]
    exact (List.filterMap_map).trans (congrArg (List.filterMap · specifiers) (funext importedIdent?_relabel))
  | _ =>
    rw [relabel_eq]
    rfl
termination_by sizeOf n

theorem switchCase_relabel (n : Node) :
    (match n.relabel g with
      | switchCase _ _ body => body.flatMap lexicalIdents
      | _ => []) =
    match n with
      | switchCase _ _ body => body.flatMap lexicalIdents
      | _ => [] := by
  cases n with
  | switchCase s test body =>
    unfold relabel
    simp only [Node.traverse,traverse_list_pure,traverse_option_pure,pure_bind,Id.run_pure,relabelOwn,
      flatMap_relabel lexicalIdents_relabel]
  | _ =>
    rw [relabel_eq]
    rfl

theorem ownIdents?_relabel (n : Node) : (n.relabel g).ownIdents? = n.ownIdents? := by
  unfold relabel
  cases n with
  | switchStatement s subject cases =>
    simp only [Node.traverse,traverse_list_pure,pure_bind,Id.run_pure,relabelOwn,ownIdents?,List.flatMap_map]
    exact congrArg (fun f => some (List.flatMap f cases)) (funext switchCase_relabel)
  | _ =>
    simp only [Node.traverse,traverse_list_pure,traverse_option_pure,pure_bind,Id.run_pure,relabelOwn,ownIdents?,
      Option.toList_map,flatMap_relabel boundIdents_relabel,flatMap_relabel hoistedIdents_relabel,
      flatMap_relabel lexicalIdents_relabel,hoistedIdents_relabel,lexicalIdents_relabel]

theorem traverseIdents_relabel {m : Type → Type} [Monad m] [LawfulMonad m] (f : Ident → m Ident) (n : Node) :
    (n.relabel g).traverseIdents f = relabel g <$> n.traverseIdents f := by
  rw [relabel_eq]
  cases n
  all_goals first
    | exact follows_tracks.node _ rfl
    | exact follows_tracks.bind (tracks_id _) (fun _ => trivial) fun _ => follows_tracks.node _ rfl

theorem mapIdents_relabel (f : Ident → Ident) (n : Node) :
    (n.relabel g).mapIdents f = (n.mapIdents f).relabel g :=
  congrArg Id.run (traverseIdents_relabel (m := Id) (fun id => f id) n)

theorem allIdents_relabel (n : Node) : (n.relabel g).allIdents = n.allIdents := by
  rw [allIdents,allIdents,traverseIdents_relabel]
  refine congrArg (_ ++ ·) ?_
  exact collect_relabel (fun part ids => ids ++ part.allIdents) n
    (fun part _ => funext fun ids => congrArg (ids ++ ·) (allIdents_relabel part)) []
termination_by sizeOf n

theorem rebuild_relabel {f : Node → Node} (hf : ∀ n : Node, f (n.relabel g) = (f n).relabel g) (n : Node) :
    (n.relabel g).rebuild f = (n.rebuild f).relabel g := by
  rw [rebuild,rebuild,← hf]
  refine congrArg f (congrArg Id.run (traverse_relabel (m := Id) (k := fun part => pure (rebuild f part)) n ?_))
  exact fun part _ => congrArg pure (rebuild_relabel hf part)
termination_by sizeOf n

end Node

namespace Naming

open Node

variable {g : String → String}

theorem chooseBelow_relabel (unresolved : List String) (visible : Naming) (n : Node) :
    chooseBelow unresolved visible (n.relabel g) = relabel g <$> chooseBelow unresolved visible n := by
  rw [chooseBelow,chooseBelow,ownIdents?_relabel,allIdents_relabel]
  have htraverse (inner : Naming) :=
    traverse_relabel (g := g) n (k := chooseBelow unresolved inner) (f := chooseBelow unresolved inner)
      fun part _ => chooseBelow_relabel unresolved inner part
  cases n.ownIdents? with
  | none => exact htraverse visible
  | some ids =>
    rw [map_bind]
    exact bind_congr fun _ => htraverse _
termination_by sizeOf n

theorem declaredBelow_relabel (n : Node) : declaredBelow (n.relabel g) = declaredBelow n := by
  rw [declaredBelow,declaredBelow,ownIdents?_relabel]
  refine congrArg (n.ownIdents?.getD [] ++ ·) ?_
  exact collect_relabel (fun part ids => ids ++ declaredBelow part) n
    (fun part _ => funext fun ids => congrArg (ids ++ ·) (declaredBelow_relabel part)) []
termination_by sizeOf n

theorem declaredIdents_relabel (m : Module) : (m.relabel g).declaredIdents = m.declaredIdents := by
  have hlexical : (m.relabel g).body.flatMap lexicalIdents = _ := flatMap_relabel lexicalIdents_relabel m.body
  have hhoisted : (m.relabel g).body.flatMap hoistedIdents = _ := flatMap_relabel hoistedIdents_relabel m.body
  rw [Module.declaredIdents,Module.declaredIdents,hlexical,hhoisted]

theorem ofModule_relabel (m : Module) : ofModule (m.relabel g) = ofModule m := by
  have hall : (m.relabel g).body.flatMap allIdents = _ := flatMap_relabel allIdents_relabel m.body
  have hbelow : (m.relabel g).body.flatMap declaredBelow = _ := flatMap_relabel declaredBelow_relabel m.body
  have hchoose (unresolved : List String) (top : Naming) :
      (m.relabel g).body.mapM (chooseBelow unresolved top) = _ :=
    mapM_relabel fun n _ => chooseBelow_relabel unresolved top n
  rw [ofModule,ofModule,hall,hbelow,declaredIdents_relabel]
  simp only [hchoose]
  rfl

private theorem separate_specifier (names : Naming) {s : Span} {l : Node} (hl : ∀ id, l ≠ ident id)
    (exported : Option Node) (isType : Bool) :
    names.separate (exportSpecifier s l exported isType) = exportSpecifier s l exported isType := by
  unfold separate
  split
  case h_4 id _ heq => exact absurd (exportSpecifier.inj heq).2.1 (hl id)
  all_goals simp_all

private theorem relabel_ne_ident {n : Node} (hn : ∀ id, n ≠ ident id) (id : Ident) :
    n.relabel g ≠ ident id := by
  rw [relabel_eq]
  cases n with
  | ident i => exact absurd rfl (hn i)
  | _ => nofun

theorem separate_relabel (names : Naming) (n : Node) :
    names.separate (n.relabel g) = (names.separate n).relabel g := by
  have hkey (s : Span) (name : String) : (keyName s name).relabel g = keyName s name := relabel_eq g _
  have hident (id : Ident) : (ident id).relabel g = ident id := relabel_eq g _
  cases n with
  | shorthand id =>
    have hself : (shorthand id).relabel g = shorthand id := relabel_eq g _
    rw [hself]
    by_cases hr : names.isRenamed id
    · simp only [separate,if_pos hr]
      rw [relabel_eq]
      exact congrArg₂ property (hkey _ _).symm (hident _).symm
    · simp only [separate,if_neg hr,hself]
  | shorthandPattern s id value =>
    by_cases hr : names.isRenamed id
    · cases value with
      | none =>
        simp only [separate,if_pos hr]
        rw [relabel_eq,relabel_eq g (property ..)]
        exact (if_pos hr).trans (congrArg₂ property (hkey _ _).symm (hident _).symm)
      | some v =>
        simp only [separate,if_pos hr]
        have hdefault : (withDefault s (ident id) v).relabel g = withDefault s (ident id) (v.relabel g) :=
          (relabel_eq g _).trans (congrArg (withDefault s · _) (hident id))
        rw [relabel_eq,relabel_eq g (property ..)]
        exact (if_pos hr).trans (congrArg₂ property (hkey _ _).symm hdefault.symm)
    · simp only [separate,if_neg hr]
      rw [relabel_eq]
      exact if_neg hr
  | importNamed s id imported isType =>
    cases imported with
    | none =>
      simp only [separate]
      rw [relabel_eq,relabel_eq g (importNamed ..)]
      by_cases hr : names.isRenamed id
      · rw [if_pos hr]
        exact congrArg (importNamed s id · isType) ((if_pos hr).trans (congrArg some (hkey _ _).symm))
      · rw [if_neg hr]
        exact congrArg (importNamed s id · isType) (if_neg hr)
    | some n =>
      simp only [separate]
      rw [relabel_eq]
      rfl
  | exportSpecifier s l exported isType =>
    have hspec (l : Node) (exported : Option Node) : (exportSpecifier s l exported isType).relabel g =
        exportSpecifier s (l.relabel g) (exported.map (relabel g)) isType := by
      rw [relabel_eq]
      simp only [mapParts,Node.traverse,traverse_option_pure,pure_bind,Id.run_pure,relabelOwn]
    by_cases hl : ∃ id, l = ident id
    · obtain ⟨id,rfl⟩ := hl
      rw [hspec,hident]
      cases exported with
      | some n => simp only [Option.map_some,separate,hspec,hident]
      | none =>
        by_cases hr : names.isRenamed id
        · simp only [Option.map_none,separate,if_pos hr,hspec,hident,Option.map_some,hkey]
        · simp only [Option.map_none,separate,if_neg hr,hspec,hident]
    · have hl : ∀ id, l ≠ ident id := fun id heq => hl ⟨id,heq⟩
      rw [separate_specifier names hl,hspec,separate_specifier names (relabel_ne_ident hl)]
  | _ =>
    simp only [separate]
    rw [relabel_eq]
    rfl

theorem separateExport_relabel (names : Naming) (n : Node) :
    names.separateExport (n.relabel g) = (names.separateExport n).map (relabel g) := by
  cases n with
  | exportDecl s d =>
    have hdecl : (exportDecl s d).relabel g = exportDecl s (d.relabel g) := relabel_eq g _
    rw [hdecl,separateExport,separateExport,lexicalIdents_relabel,hoistedIdents_relabel]
    split
    · rw [List.map_cons,List.map_nil,hdecl]
    · have hspec (id : Ident) : (exportSpecifier Span.synthetic (ident id)
          (some (keyName Span.synthetic id.name)) false).relabel g =
          exportSpecifier Span.synthetic (ident id) (some (keyName Span.synthetic id.name)) false := by
        rw [relabel_eq]
        exact congrArg₂ (exportSpecifier Span.synthetic · · false) (relabel_eq g (ident id))
          (congrArg some (relabel_eq g (keyName ..)))
      rw [List.map_cons,List.map_cons,List.map_nil,relabel_eq g (exportNamed ..)]
      simp only [mapParts,Node.traverse,traverse_list_pure,traverse_option_pure,pure_bind,Id.run_pure,relabelOwn,
        List.map_map,Function.comp_def,hspec,Option.map_none]
  | _ =>
    rw [relabel_eq]
    exact congrArg (fun n => [n]) (relabel_eq g _).symm

theorem renameBelow_relabel (names : Naming) (n : Node) :
    names.renameBelow (n.relabel g) = (names.renameBelow n).relabel g := by
  rw [renameBelow,renameBelow,rebuild_relabel (separate_relabel names),
    rebuild_relabel (mapIdents_relabel names.rename)]

end Naming

/-- Which names are chosen does not depend on the texts. -/
theorem Module.withNaming_relabel (g : String → String) (m : Module) :
    (m.relabel g).withNaming = m.withNaming.relabel g := by
  rw [withNaming,withNaming,Naming.ofModule_relabel]
  refine congrArg (fun body => ({ m with body } : Module)) ?_
  have hexports : (m.body.map (Node.relabel g)).flatMap (Naming.ofModule m).separateExport =
      (m.body.flatMap (Naming.ofModule m).separateExport).map (Node.relabel g) := by
    rw [List.flatMap_map,List.map_flatMap]
    exact congrArg (List.flatMap · m.body) (funext (Naming.separateExport_relabel _))
  rw [Module.relabel,hexports,List.map_map,List.map_map]
  exact List.map_congr_left fun n _ => Naming.renameBelow_relabel _ n

end PreviewCompiler.Script
