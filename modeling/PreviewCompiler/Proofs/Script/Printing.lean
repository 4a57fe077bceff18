import PreviewCompiler.Proofs.Script.Sketch

namespace PreviewCompiler.Script

namespace Node

variable {g : String → String}

/-- A name that stands for all parameters of a function is one with other texts. -/
theorem single_relabel (ns : List Node) :
    (match ns.map (relabel g) with
      | [ident _] => true
      | _ => false) =
    match ns with
      | [ident _] => true
      | _ => false := by
  cases ns with
  | nil => rfl
  | cons n ns =>
    rw [List.map_cons,relabel_eq]
    cases ns <;> cases n <;> rfl

theorem startsWithWord_relabel (n : Node) : (n.relabel g).startsWithWord = n.startsWithWord := by
  rw [relabel_eq]
  cases n with
  | literal s l => rcases l with _ | _ | _ | _ | ⟨_,_ | _⟩ | _ <;> rfl
  | arrow s a params b =>
    rw [← relabel_eq]
    unfold relabel
    simp only [Node.traverse,traverse_list_pure,pure_bind,Id.run_pure,relabelOwn,startsWithWord]
    exact congrArg (a || ·) (single_relabel params)
  | update s op leads arg => exact congrArg (!leads && ·) (startsWithWord_relabel arg)
  | binary s op l r => exact startsWithWord_relabel l
  | assign s op t v => exact startsWithWord_relabel t
  | conditional s t y e => exact startsWithWord_relabel t
  | member s o nm => exact startsWithWord_relabel o
  | index s o k => exact startsWithWord_relabel o
  | call s c as => exact startsWithWord_relabel c
  | chain s o b => exact startsWithWord_relabel b
  | tagged s t q => exact startsWithWord_relabel t
  | exprStatement s e => exact startsWithWord_relabel e
  | sequence s es =>
    cases es with
    | nil => rfl
    | cons e es => exact startsWithWord_relabel e
  | _ => rfl
termination_by sizeOf n

theorem endsWithWord_relabel (n : Node) : (n.relabel g).endsWithWord = n.endsWithWord := by
  rw [relabel_eq]
  cases n with
  | literal s l => rcases l with _ | _ | _ | _ | ⟨_,_ | _⟩ | _ <;> rfl
  | unary _ _ arg | await _ arg => exact endsWithWord_relabel arg
  | update _ _ leads arg => exact congrArg (leads && ·) (endsWithWord_relabel arg)
  | binary _ _ _ right => exact endsWithWord_relabel right
  | assign _ _ _ value => exact endsWithWord_relabel value
  | conditional _ _ _ no => exact endsWithWord_relabel no
  | member _ _ name => exact endsWithWord_relabel name
  | chain _ _ base => exact endsWithWord_relabel base
  | construct _ callee _ hasArgs => exact congrArg (!hasArgs && ·) (endsWithWord_relabel callee)
  | _ => rfl
termination_by sizeOf n

theorem joinsSign_relabel (op : String) (n : Node) : (n.relabel g).joinsSign op = n.joinsSign op := by
  rw [relabel_eq]
  cases n with
  | update _ _ leads arg => cases leads <;> rfl
  | binary _ _ left _ => exact joinsSign_relabel op left
  | _ => rfl
termination_by sizeOf n

theorem breaksLine_relabel (comments : Comments) (n : Node) :
    (n.relabel g).breaksLine comments = n.breaksLine comments := by rw [breaksLine,breaksLine,span_relabel]

end Node

namespace Write

/-- Is each node written as a sketch with the other texts in its places? -/
def SketchesEach (emit : Node → Write Unit) : Prop := ∀ n : Node, Sketches fun g => emit (n.relabel g)

namespace Sketches

open Node

theorem ite {α : Type} {b : Bool} {x y : (String → String) → Write α} (hx : Sketches x) (hy : Sketches y) :
    Sketches fun g => if b then x g else y g := by
  cases b with
  | false => exact hy
  | true => exact hx

/-- Something that is written in front of the rest under a condition. -/
theorem onlyIf {α : Type} (b : Bool) {x : (String → String) → Write Unit} {y : (String → String) → Write α}
    (hx : Sketches x) (hy : Sketches y) : Sketches fun g => if b then x g >>= fun _ => y g else y g :=
  ite (hx.bind fun _ => hy) hy

theorem congr {α : Type} {w w' : (String → String) → Write α} (hw : Sketches w) (h : ∀ g, w' g = w g) :
    Sketches w' := funext h ▸ hw

variable {emit : Node → Write Unit}

private theorem hole_or (n : Node) : n = hole ∨ ∀ g : String → String, n.relabel g ≠ hole := by
  simp only [relabel_eq]
  cases n with
  | hole => exact .inl rfl
  | _ => exact .inr fun g => nofun

private theorem commaList_one {n : Node} (hn : n ≠ hole) : Write.commaList emit [n] = emit n := by
  cases n with
  | hole => exact absurd rfl hn
  | _ => rfl

private theorem commaLines_one {n : Node} (hn : n ≠ hole) : Write.commaLines emit [n] = emit n := by
  cases n with
  | hole => exact absurd rfl hn
  | _ => rfl

private theorem commaList_cons (n m : Node) (ns : List Node) : Write.commaList emit (n :: m :: ns) = (do
    emit n
    Write.text ","
    Write.gap
    Write.commaList emit (m :: ns)) := by rw [Write.commaList] <;> nofun

private theorem commaLines_cons (n m : Node) (ns : List Node) : Write.commaLines emit (n :: m :: ns) = (do
    emit n
    Write.text ","
    Write.lineEnd
    Write.commaLines emit (m :: ns)) := by rw [Write.commaLines] <;> nofun

theorem commaList (hemit : SketchesEach emit) (ns : List Node) :
    Sketches fun g => Write.commaList emit (ns.map (relabel g)) := by
  match ns with
  | [] => exact pure ()
  | [n] =>
    simp only [List.map_cons,List.map_nil]
    rcases hole_or n with rfl | hn
    · simp only [relabel_eq]
      exact text ","
    · simp only [commaList_one (hn _)]
      exact hemit n
  | n :: m :: ns =>
    simp only [List.map_cons,commaList_cons]
    exact (hemit n).bind fun _ => (text ",").bind fun _ => gap.bind fun _ => commaList hemit (m :: ns)

theorem commaLines (hemit : SketchesEach emit) (ns : List Node) :
    Sketches fun g => Write.commaLines emit (ns.map (relabel g)) := by
  match ns with
  | [] => exact pure ()
  | [n] =>
    simp only [List.map_cons,List.map_nil]
    rcases hole_or n with rfl | hn
    · simp only [relabel_eq]
      exact text ","
    · simp only [commaLines_one (hn _)]
      exact hemit n
  | n :: m :: ns =>
    simp only [List.map_cons,commaLines_cons]
    exact (hemit n).bind fun _ => (text ",").bind fun _ => lineEnd.bind fun _ => commaLines hemit (m :: ns)

theorem bracketed (hemit : SketchesEach emit) (opening closing : String) (ns : List Node) :
    Sketches fun g => Write.bracketed emit opening closing (ns.map (relabel g)) := by
  simp only [Write.bracketed,List.isEmpty_map]
  have hend : Sketches fun _ => Write.text closing := text closing
  exact (text opening).bind fun _ => ite hend <| isBrief.bind fun _ =>
    ite ((commaList hemit ns).bind fun _ => hend) <|
      lineEnd.bind fun _ => (indented (commaLines hemit ns)).bind fun _ => lineEnd.bind fun _ => hend

theorem braced (hemit : SketchesEach emit) (ns : List Node) :
    Sketches fun g => Write.braced emit (ns.map (relabel g)) := by
  simp only [Write.braced,List.isEmpty_map]
  exact (text _).bind fun _ => ite (text _) <|
    gap.bind fun _ => (commaList hemit ns).bind fun _ => gap.bind fun _ => text _

theorem args (hemit : SketchesEach emit) (ns : List Node) : Sketches fun g => Write.args emit (ns.map (relabel g)) :=
  (text "(").bind fun _ => (commaList hemit ns).bind fun _ => text ")"

theorem all {w : Node → Write Unit} (hw : ∀ n, Sketches fun g => w (relabel g n)) (ns : List Node) :
    Sketches fun g => (ns.map (relabel g)).forM w := by
  induction ns with
  | nil => exact pure ()
  | cons n ns ih => exact (hw n).bind fun _ => ih

theorem lines (hemit : SketchesEach emit) (ns : List Node) : Sketches fun g => (ns.map (relabel g)).forM (fun n => do
    emit n
    Write.line) := all (fun n => (hemit n).bind fun _ => line) ns

theorem optional {w : Node → Write Unit} (hw : ∀ n, Sketches fun g => w (relabel g n)) (o : Option Node) :
    Sketches fun g => (o.map (relabel g)).forM w := by
  cases o with
  | none => exact pure ()
  | some n => exact hw n

theorem blockBody (hemit : SketchesEach emit) (span : Span) (body : List Node) :
    Sketches fun g => Write.blockBody emit span (body.map (relabel g)) := by
  simp only [Write.blockBody,List.isEmpty_map]
  refine (leading _).bind fun _ => (text _).bind fun _ => ?_
  refine get_bind (fun _ _ _ => rfl) fun page => ?_
  have hend : Sketches fun _ => if (!(page.comments.leadingAt (span.hi - 1)).isEmpty) = true then do
      Write.line
      Write.leading (span.hi - 1)
      Write.text r"}" else Write.text r"}" :=
    ite (line.bind fun _ => (leading _).bind fun _ => text _) (text _)
  exact ite hend <| line.bind fun _ => (indented (lines hemit body)).bind fun _ => hend

theorem functionTail (hemit : SketchesEach emit) (params : List Node) (body : Option Node) :
    Sketches fun g => Write.functionTail emit (params.map (relabel g)) (body.map (relabel g)) := by
  refine (args hemit params).bind fun _ => ?_
  cases body with
  | none => exact text ";"
  | some b => exact gap.bind fun _ => hemit b

theorem functionHead (hemit : SketchesEach emit) (name : Option Ident) (n : Node) :
    Sketches fun g => Write.functionHead emit name (n.relabel g) := by
  simp only [relabel_eq _ n]
  cases n with
  | function s own isAsync isGenerator params body =>
    simp only [mapParts,Node.traverse,traverse_list_pure,traverse_option_pure,pure_bind,Id.run_pure,relabelOwn,
      Write.functionHead]
    have htail := functionTail hemit params body
    cases name <|> own with
    | none =>
      have hstar := onlyIf isGenerator (text "*") htail
      exact onlyIf isAsync (text "async ") <| (text _).bind fun _ => hstar
    | some id =>
      have hname := (gapBefore (!isGenerator)).bind fun _ => (text id.name).bind fun _ => htail
      have hstar := onlyIf isGenerator (text "*") hname
      exact onlyIf isAsync (text "async ") <| (text _).bind fun _ => hstar
  | _ => exact pure ()

theorem methodTail (hemit : SketchesEach emit) (kind : MethodKind) (key n : Node) :
    Sketches fun g => Write.methodTail emit kind (key.relabel g) (n.relabel g) := by
  simp only [relabel_eq _ n]
  cases n with
  | function s own isAsync isGenerator params body =>
    simp only [mapParts,Node.traverse,traverse_list_pure,traverse_option_pure,pure_bind,Id.run_pure,relabelOwn,
      Write.methodTail,startsWithWord_relabel]
    have htail := (hemit key).bind fun _ => functionTail hemit params body
    have hhead {w : (String → String) → Write Unit} (hw : Sketches w) :=
      have hstar := onlyIf isGenerator (text "*") hw
      ite (b := isAsync)
        ((text "async").bind fun _ => (gapBefore (!isGenerator && key.startsWithWord)).bind fun _ => hstar) hstar
    have hword (word : String) := (text word).bind fun _ => (gapBefore key.startsWithWord).bind fun _ => htail
    cases kind with
    | getter => exact hhead (hword "get")
    | setter => exact hhead (hword "set")
    | plain | constructor => exact hhead htail
  | _ => exact pure ()

theorem classHead (hemit : SketchesEach emit) (name : Option Ident) (n : Node) :
    Sketches fun g => Write.classHead emit name (n.relabel g) := by
  simp only [relabel_eq _ n]
  cases n with
  | classValue s own superclass members =>
    simp only [mapParts,Node.traverse,traverse_list_pure,traverse_option_pure,pure_bind,Id.run_pure,relabelOwn,
      Write.classHead]
    have htail := gap.bind fun _ => (text r"{").bind fun _ => line.bind fun _ =>
      (indented (lines hemit members)).bind fun _ => text r"}"
    cases superclass with
    | none =>
      cases name <|> own with
      | none => exact (text _).bind fun _ => htail
      | some id => exact (text _).bind fun _ => (text _).bind fun _ => htail
    | some sup =>
      have hsuper := (text " extends").bind fun _ => (gapBefore sup.startsWithWord).bind fun _ =>
        (hemit sup).bind fun _ => htail
      simp only [Option.map_some,startsWithWord_relabel]
      cases name <|> own with
      | none => exact (text _).bind fun _ => hsuper
      | some id => exact (text _).bind fun _ => (text _).bind fun _ => hsuper
  | _ => exact pure ()

theorem literal (l : Literal) : Sketches fun g => Write.literal (l.relabel g) := by
  cases l with
  | string value raw =>
    cases raw with
    | none => exact text_quoted value
    | some raw => exact isBrief.bind fun _ => text _
  | number raw => exact isBrief.bind fun _ => text _
  | _ => exact text _

theorem templateParts (hemit : SketchesEach emit) (ts : List String) (vs : List Node) :
    Sketches fun g => Write.templateParts emit ts (vs.map (relabel g)) := by
  induction ts generalizing vs with
  | nil => exact text _
  | cons t ts ih =>
    cases vs with
    | nil => exact text _
    | cons v vs => exact (text _).bind fun _ => (text _).bind fun _ => (hemit v).bind fun _ =>
        (text _).bind fun _ => ih vs

theorem memberObject (hemit : SketchesEach emit) (n : Node) :
    Sketches fun g => Write.memberObject emit (n.relabel g) := by
  have hn := hemit n
  cases n with
  | construct s callee params hasArgs =>
    cases hasArgs with
    | false => exact hn.congr fun g => by rw [relabel_eq]; rfl
    | true =>
      simp only [relabel_eq _ (Node.construct ..)]
      simp only [mapParts,Node.traverse,traverse_list_pure,pure_bind,Id.run_pure,relabelOwn,Write.memberObject,
        startsWithWord_relabel]
      exact (leading _).bind fun _ => (text _).bind fun _ => (gapBefore _).bind fun _ => (hemit callee).bind fun _ =>
        (args hemit params).bind fun _ => trailing _
  | literal s l =>
    simp only [relabel_literal] at hn ⊢
    cases l with
    | number raw => exact hn.bind fun _ => isBrief.bind fun _ => ite (text _) (pure ())
    | string value raw => cases raw <;> exact hn
    | _ => exact hn
  | _ => exact hn.congr fun g => by rw [relabel_eq]; rfl

theorem operator (op : String) (left right : Node) :
    Sketches fun g => Write.operator op (left.relabel g) (right.relabel g) := by
  simp only [Write.operator,endsWithWord_relabel,startsWithWord_relabel,joinsSign_relabel]
  have htail := (text op).bind fun _ =>
    ite (b := if op == "in" || op == "instanceof" then right.startsWithWord else right.joinsSign op) blank (pure ())
  exact isBrief.bind fun _ => ite (onlyIf _ blank htail) (text _)

theorem jumpValue (hemit : SketchesEach emit) (n : Node) : Sketches fun g => Write.jumpValue emit (n.relabel g) := by
  simp only [Write.jumpValue,breaksLine_relabel,startsWithWord_relabel]
  refine get_bind (fun _ _ _ => rfl) fun page => ite ?_ ((gapBefore _).bind fun _ => hemit n)
  exact (text _).bind fun _ => (hemit n).bind fun _ => text _

theorem arrowBody (hemit : SketchesEach emit) (n : Node) : Sketches fun g => match n.relabel g with
    | .block .. => emit (n.relabel g)
    | body => Write.indented (emit body) := by
  have hn := hemit n
  cases n with
  | block s body => exact hn.congr fun g => by rw [relabel_eq]; rfl
  | _ => exact (indented hn).congr fun g => by rw [relabel_eq]; rfl

private theorem value_arrow {s : Span} {isAsync : Bool} {params : List Node} {body : Node} {isSingle : Bool}
    (h : (match params with
      | [.ident _] => true
      | _ => false) = isSingle) :
    Write.value emit (.arrow s isAsync params body) = (do
      let isBare := (← Write.isBrief) && isSingle
      if isAsync then
        Write.text "async"
        Write.gapBefore isBare
      if isBare then Write.commaList emit params else Write.args emit params
      Write.text "=>"
      match body with
      | .block .. => emit body
      | body => Write.indented (emit body)) := by
  subst h
  rfl

theorem arrow (hemit : SketchesEach emit) (s : Span) (isAsync : Bool) (params : List Node) (body : Node) :
    Sketches fun g => Write.value emit (.arrow s isAsync (params.map (relabel g)) (body.relabel g)) := by
  simp only [value_arrow (single_relabel params)]
  refine isBrief.bind fun _ => ?_
  have hbody := (text "=>").bind fun _ => arrowBody hemit body
  have hparams (isBare : Bool) := ite (b := isBare) ((commaList hemit params).bind fun _ => hbody)
    ((args hemit params).bind fun _ => hbody)
  exact ite ((text _).bind fun _ => (gapBefore _).bind fun _ => hparams _) (hparams _)

/-- What stands behind a question mark and in front of it. -/
theorem chainBase (hemit : SketchesEach emit) (s : Span) (base : Node) :
    Sketches fun g => Write.value emit (.chain s true (base.relabel g)) := by
  have hbase := hemit base
  cases base with
  | member _ o name =>
    exact ((hemit o).bind fun _ => (text "?.").bind fun _ => hemit name).congr fun g => by rw [relabel_eq]; rfl
  | index _ o key =>
    exact ((hemit o).bind fun _ => (text "?.[").bind fun _ => (hemit key).bind fun _ => text "]").congr fun g => by
      rw [relabel_eq]; rfl
  | call _ callee as =>
    simp only [relabel_eq _ (Node.call ..)]
    simp only [mapParts,Node.traverse,traverse_list_pure,pure_bind,Id.run_pure,relabelOwn]
    exact (hemit callee).bind fun _ => (text "?.").bind fun _ => args hemit as
  | _ => exact hbase.congr fun g => by rw [relabel_eq]; rfl

theorem value (hemit : SketchesEach emit) (n : Node) : Sketches fun g => Write.value emit (n.relabel g) := by
  have hfunction := functionHead hemit none n
  have hclass := classHead hemit none n
  simp only [relabel_eq _ n] at hfunction hclass ⊢
  cases n
  case function => exact hfunction
  case classValue => exact hclass
  case arrow s isAsync params body =>
    simp only [mapParts,Node.traverse,traverse_list_pure,pure_bind,Id.run_pure,relabelOwn]
    exact arrow hemit s isAsync params body
  all_goals simp only [mapParts,Node.traverse,traverse_list_pure,traverse_option_pure,pure_bind,Id.run_pure,relabelOwn,
    Write.value,startsWithWord_relabel,joinsSign_relabel,List.isEmpty_map]
  case ident | shorthand | keyName | privateName | thisWord | superWord | importWord | importMeta | newTarget =>
    exact text _
  case literal s l => exact literal l
  case computedName s e | paren s e => exact (text _).bind fun _ => (hemit e).bind fun _ => text _
  case template s ts vs =>
    exact (text _).bind fun _ => (templateParts hemit ts vs).bind fun _ => text _
  case tagged s tag t => exact (hemit tag).bind fun _ => hemit t
  case array s es => exact bracketed hemit _ _ es
  case object s ps => exact bracketed hemit _ _ ps
  case property k v => exact (hemit k).bind fun _ => (text _).bind fun _ => gap.bind fun _ => hemit v
  case shorthandDefault s id v =>
    exact (text _).bind fun _ => gap.bind fun _ => (text _).bind fun _ => gap.bind fun _ => hemit v
  case method s kind key f => exact methodTail hemit kind key f
  case spread s v | rest s v | await s v => exact (text _).bind fun _ => hemit v
  case unary s op arg =>
    refine (text _).bind fun _ => ite ((gapBefore _).bind fun _ => hemit arg) ?_
    exact onlyIf _ blank (hemit arg)
  case update s op leads arg =>
    have htail := (hemit arg).bind fun _ => ite (b := leads) (pure ()) (text op)
    exact onlyIf _ (text op) htail
  case binary s op left right =>
    exact (hemit left).bind fun _ => (operator op left right).bind fun _ => hemit right
  case assign s op target v =>
    exact (hemit target).bind fun _ => gap.bind fun _ => (text _).bind fun _ => gap.bind fun _ => hemit v
  case conditional s test yes no =>
    have hno := gap.bind fun _ => (text ":").bind fun _ => gap.bind fun _ => hemit no
    exact (hemit test).bind fun _ => gap.bind fun _ => (text _).bind fun _ => gap.bind fun _ =>
      (hemit yes).bind fun _ => hno
  case member s o name => exact (memberObject hemit o).bind fun _ => (text _).bind fun _ => hemit name
  case index s o key =>
    exact (memberObject hemit o).bind fun _ => (text _).bind fun _ => (hemit key).bind fun _ => text _
  case call s callee as => exact (hemit callee).bind fun _ => args hemit as
  case construct s callee as hasArgs =>
    refine (text _).bind fun _ => (gapBefore _).bind fun _ => (hemit callee).bind fun _ => ?_
    exact isBrief.bind fun _ => ite (args hemit as) (pure ())
  case chain s optional base =>
    cases optional with
    | false => exact hemit base
    | true => exact chainBase hemit s base
  case sequence s es => exact commaList hemit es
  case yield s delegate v =>
    cases v with
    | none => exact (text _).bind fun _ => onlyIf _ (text "*") (pure ())
    | some v =>
      simp only [Option.map_some,startsWithWord_relabel]
      have hvalue := (gapBefore (!delegate && v.startsWithWord)).bind fun _ => hemit v
      exact (text _).bind fun _ => onlyIf _ (text "*") hvalue
  case typed s v => exact hemit v
  case arrayPattern s es => exact (text _).bind fun _ => (commaList hemit es).bind fun _ => text _
  case objectPattern s ps => exact braced hemit ps
  case withDefault s target v =>
    exact (hemit target).bind fun _ => gap.bind fun _ => (text _).bind fun _ => gap.bind fun _ => hemit v
  case shorthandPattern s id v =>
    refine (text _).bind fun _ => ?_
    cases v with
    | none => exact pure ()
    | some v => exact gap.bind fun _ => (text _).bind fun _ => gap.bind fun _ => hemit v
  all_goals exact pure ()

theorem startsWithBracket_relabel (g : String → String) (ds : List Node) :
    startsWithBracket (ds.map (relabel g)) = startsWithBracket ds := by
  cases ds with
  | nil => rfl
  | cons n ns =>
    rw [List.map_cons,relabel_eq]
    cases n with
    | declarator s target init =>
      change startsWithBracket (.declarator s (target.relabel g) _ :: _) = _
      rw [relabel_eq g target]
      cases target <;> rfl
    | _ => rfl

theorem variableDecl (hemit : SketchesEach emit) (n : Node) :
    Sketches fun g => Write.variableDecl emit (n.relabel g) := by
  have hn := hemit n
  cases n with
  | variableDecl s kind d ds =>
    simp only [relabel_eq _ (Node.variableDecl ..)]
    simp only [mapParts,Node.traverse,traverse_list_pure,pure_bind,Id.run_pure,relabelOwn,Write.variableDecl,
      startsWithBracket_relabel]
    exact (text _).bind fun _ => (gapBefore _).bind fun _ => commaList hemit ds
  | _ => exact hn.congr fun g => by rw [relabel_eq]; rfl

theorem declarator (hemit : SketchesEach emit) (target : Node) (init : Option Node) :
    Sketches fun g => Write.declarator emit (target.relabel g) (init.map (relabel g)) := by
  refine (hemit target).bind fun _ => ?_
  cases init with
  | none => exact pure ()
  | some v => exact gap.bind fun _ => (text _).bind fun _ => gap.bind fun _ => hemit v

theorem jump (word : String) (label : Option Ident) : Sketches fun _ => Write.jump word label := by
  refine (text word).bind fun _ => ?_
  cases label with
  | none => exact text _
  | some id => exact (text _).bind fun _ => text _

theorem isBlock_relabel (g : String → String) (n : Node) : isBlock (n.relabel g) = isBlock n := by
  rw [relabel_eq]
  cases n <;> rfl

theorem ifStatement (hemit : SketchesEach emit) (test yes : Node) (no : Option Node) :
    Sketches fun g => Write.ifStatement emit (test.relabel g) (yes.relabel g) (no.map (relabel g)) := by
  refine (text "if").bind fun _ => gap.bind fun _ => (text _).bind fun _ => (hemit test).bind fun _ => ?_
  refine (text _).bind fun _ => gap.bind fun _ => (hemit yes).bind fun _ => ?_
  cases no with
  | none => exact pure ()
  | some no =>
    simp only [Option.map_some,isBlock_relabel,startsWithWord_relabel]
    have helse := (text "else").bind fun _ => (gapBefore no.startsWithWord).bind fun _ => hemit no
    exact ite (gap.bind fun _ => helse) (line.bind fun _ => helse)

theorem isPattern_relabel (g : String → String) (n : Node) :
    loopOver.isPattern (n.relabel g) = loopOver.isPattern n := by
  rw [relabel_eq]
  cases n with
  | variableDecl s kind d ds =>
    simp only [mapParts,Node.traverse,traverse_list_pure,pure_bind,Id.run_pure,relabelOwn]
    exact startsWithBracket_relabel g ds
  | _ => rfl

theorem loopOver (hemit : SketchesEach emit) (left : Node) (word : String) (right : Node) :
    Sketches fun g => Write.loopOver emit (left.relabel g) word (right.relabel g) := by
  simp only [Write.loopOver,endsWithWord_relabel,startsWithWord_relabel,isPattern_relabel]
  exact (variableDecl hemit left).bind fun _ => (gapBefore _).bind fun _ => (text word).bind fun _ =>
    (gapBefore _).bind fun _ => (hemit right).bind fun _ => text ")"

theorem switchCase (hemit : SketchesEach emit) (test : Option Node) (body : List Node) :
    Sketches fun g => Write.switchCase emit (test.map (relabel g)) (body.map (relabel g)) := by
  have hbody := line.bind fun _ => indented (lines hemit body)
  cases test with
  | none => exact (text _).bind fun _ => hbody
  | some t =>
    simp only [Write.switchCase,Option.map_some,startsWithWord_relabel]
    exact (text _).bind fun _ => (gapBefore _).bind fun _ => (hemit t).bind fun _ => (text _).bind fun _ => hbody

theorem statement (hemit : SketchesEach emit) (n : Node) : Sketches fun g => Write.statement emit (n.relabel g) := by
  have hn := value hemit n
  have hdecl := variableDecl hemit n
  simp only [relabel_eq _ n] at hn hdecl ⊢
  cases n
  case variableDecl => exact hdecl.bind fun _ => text _
  case functionDecl d name f => exact functionHead hemit name f
  case classDecl d name c => exact classHead hemit name c
  all_goals first
    | exact hn
    | simp only [mapParts,Node.traverse,traverse_list_pure,traverse_option_pure,pure_bind,Id.run_pure,relabelOwn,
        Write.statement,startsWithWord_relabel]
  case exprStatement s e => exact (hemit e).bind fun _ => text _
  case empty => exact text _
  case block s body => exact blockBody hemit s body
  case declarator s target init => exact declarator hemit target init
  case returnStatement s v =>
    refine (text _).bind fun _ => ?_
    cases v with
    | none => exact text _
    | some v => exact (jumpValue hemit v).bind fun _ => text _
  case throwStatement s v => exact (text _).bind fun _ => (jumpValue hemit v).bind fun _ => text _
  case ifStatement s test yes no => exact ifStatement hemit test yes no
  case whileStatement s test body =>
    exact (text _).bind fun _ => (hemit test).bind fun _ => (text _).bind fun _ => hemit body
  case doStatement s body test =>
    refine (text _).bind fun _ => (gapBefore _).bind fun _ => (hemit body).bind fun _ => (text _).bind fun _ => ?_
    exact gap.bind fun _ => (text _).bind fun _ => (hemit test).bind fun _ => (text _).bind fun _ => text _
  case forStatement s init test update body =>
    refine (text _).bind fun _ => (optional (variableDecl hemit) init).bind fun _ => (text _).bind fun _ => ?_
    refine (optional (fun n => gap.bind fun _ => hemit n) test).bind fun _ => (text _).bind fun _ => ?_
    refine (optional (fun n => gap.bind fun _ => hemit n) update).bind fun _ => ?_
    exact (text _).bind fun _ => hemit body
  case forIn s left right body =>
    exact (text _).bind fun _ => (loopOver hemit left "in" right).bind fun _ => hemit body
  case forOf s isAwait left right body =>
    have htail := gap.bind fun _ => (text "(").bind fun _ => (loopOver hemit left "of" right).bind fun _ => hemit body
    exact (text _).bind fun _ => onlyIf _ (text _) htail
  case tryStatement s block handler finalizer =>
    refine (text _).bind fun _ => gap.bind fun _ => (hemit block).bind fun _ => ?_
    refine (optional (fun n => gap.bind fun _ => hemit n) handler).bind fun _ => ?_
    exact optional (fun n => gap.bind fun _ => (text _).bind fun _ => gap.bind fun _ => hemit n) finalizer
  case catchClause s param body =>
    have hparam (n : Node) := gap.bind fun _ => (text "(").bind fun _ => (hemit n).bind fun _ => text ")"
    exact (text _).bind fun _ => (optional hparam param).bind fun _ => gap.bind fun _ => hemit body
  case switchStatement s subject cases =>
    refine (text _).bind fun _ => (hemit subject).bind fun _ => (text _).bind fun _ => (text _).bind fun _ => ?_
    exact line.bind fun _ => (indented (all hemit cases)).bind fun _ => text _
  case switchCase s test body => exact switchCase hemit test body
  case breakStatement s label | continueStatement s label => exact jump _ label
  case labelled s label body => exact (text _).bind fun _ => gap.bind fun _ => hemit body
  case debuggerStatement => exact (text _).bind fun _ => text _
  case classMethod s kind isStatic isAbstract key f =>
    have hmethod := methodTail hemit kind key f
    exact ite ((text _).bind fun _ => (gapBefore _).bind fun _ => hmethod) hmethod
  case classField s isStatic isErased key v =>
    have hstatic {w : (String → String) → Write Unit} (hw : Sketches w) :=
      ite (b := isStatic) ((text "static").bind fun _ => (gapBefore key.startsWithWord).bind fun _ => hw) hw
    cases v with
    | none => exact hstatic <| (hemit key).bind fun _ => text ";"
    | some v =>
      have hvalue := gap.bind fun _ => (text "=").bind fun _ => gap.bind fun _ => (hemit v).bind fun _ => text ";"
      exact hstatic <| (hemit key).bind fun _ => hvalue
  case staticBlock s body => exact (text _).bind fun _ => gap.bind fun _ => hemit body

theorem attributes (hemit : SketchesEach emit) (facts : Option Node) :
    Sketches fun g => Write.attributes emit (facts.map (relabel g)) :=
  optional (fun n => gap.bind fun _ => (text _).bind fun _ => gap.bind fun _ => hemit n) facts

theorem importHead (hemit : SketchesEach emit) (ns : List Node) :
    Sketches fun g => Write.importHead emit (ns.map (relabel g)) := by
  match ns with
  | [] => exact pure ()
  | [n] => exact hemit n
  | n :: m :: ns =>
    exact (hemit n).bind fun _ => (text _).bind fun _ => gap.bind fun _ => importHead hemit (m :: ns)

theorem isNamed_relabel (g : String → String) (n : Node) : isNamed (n.relabel g) = isNamed n := by
  rw [relabel_eq]
  cases n <;> rfl

theorem partition_relabel (g : String → String) (ns : List Node) :
    (ns.map (relabel g)).partition isNamed =
      ((ns.partition isNamed).1.map (relabel g),(ns.partition isNamed).2.map (relabel g)) := by
  have hcomp : isNamed ∘ relabel g = isNamed := funext (isNamed_relabel g)
  have hnot : (not ∘ isNamed) ∘ relabel g = not ∘ isNamed := congrArg (not ∘ ·) hcomp
  rw [List.partition_eq_filter_filter,List.partition_eq_filter_filter,List.filter_map,List.filter_map,hcomp,hnot]

private theorem importDecl_eq {specifiers : List Node} {source : Node} {facts : Option Node} {isDefault : Bool}
    (h : (match specifiers with
      | .importDefault .. :: _ => true
      | _ => false) = isDefault) :
    Write.importDecl emit specifiers source facts = (do
      Write.text "import"
      Write.gapBefore isDefault
      let (named,others) := specifiers.partition isNamed
      Write.importHead emit others
      if named.isEmpty then
        unless others.isEmpty do
          Write.text " from"
          Write.gap
      else
        unless others.isEmpty do
          Write.text ","
          Write.gap
        Write.braced emit named
        Write.gap
        Write.text "from"
        Write.gap
      emit source
      Write.attributes emit facts
      semicolon) := by
  subst h
  rfl

theorem importsDefault_relabel (g : String → String) (ns : List Node) :
    (match ns.map (relabel g) with
      | .importDefault .. :: _ => true
      | _ => false) =
    match ns with
      | .importDefault .. :: _ => true
      | _ => false := by
  cases ns with
  | nil => rfl
  | cons n ns =>
    rw [List.map_cons,relabel_eq]
    cases n <;> rfl

theorem importDecl (hemit : SketchesEach emit) (specifiers : List Node) (source : Node) (facts : Option Node) :
    Sketches fun g =>
      Write.importDecl emit (specifiers.map (relabel g)) (source.relabel g) (facts.map (relabel g)) := by
  simp only [importDecl_eq (importsDefault_relabel _ specifiers),partition_relabel,List.isEmpty_map]
  have hsource := (hemit source).bind fun _ => (attributes hemit facts).bind fun _ => text ";"
  refine (text _).bind fun _ => (gapBefore _).bind fun _ => (importHead hemit _).bind fun _ => ite ?_ ?_
  · exact ite hsource ((text _).bind fun _ => gap.bind fun _ => hsource)
  · have hnamed := (braced hemit (specifiers.partition isNamed).1).bind fun _ => gap.bind fun _ =>
      (text "from").bind fun _ => gap.bind fun _ => hsource
    exact ite hnamed ((text _).bind fun _ => gap.bind fun _ => hnamed)

theorem exportNamed (hemit : SketchesEach emit) (specifiers : List Node) (source facts : Option Node) :
    Sketches fun g =>
      Write.exportNamed emit (specifiers.map (relabel g)) (source.map (relabel g)) (facts.map (relabel g)) := by
  simp only [Write.exportNamed,partition_relabel,List.isEmpty_map]
  have hfacts := (attributes hemit facts).bind fun _ => text ";"
  have hnames {w : (String → String) → Write Unit} (hw : Sketches w) :=
    have hnamed := ite (b := (specifiers.partition isNamed).1.isEmpty)
      ((text r"{").bind fun _ => gap.bind fun _ => (text r"}").bind fun _ => hw)
      ((braced hemit (specifiers.partition isNamed).1).bind fun _ => hw)
    ite (b := (specifiers.partition isNamed).1.isEmpty && !(specifiers.partition isNamed).2.isEmpty) hw <|
      ite (b := (specifiers.partition isNamed).2.isEmpty) hnamed <| (text ",").bind fun _ => gap.bind fun _ => hnamed
  refine (text _).bind fun _ => gap.bind fun _ => (importHead hemit _).bind fun _ => ?_
  cases source with
  | none => exact hnames hfacts
  | some s =>
    have hsource := (hemit s).bind fun _ => hfacts
    exact hnames <| (gapBefore _).bind fun _ => (text "from").bind fun _ => gap.bind fun _ => hsource

theorem item (hemit : SketchesEach emit) (n : Node) : Sketches fun g => Write.item emit (n.relabel g) := by
  have hn := statement hemit n
  simp only [relabel_eq _ n] at hn ⊢
  cases n
  all_goals first
    | exact hn
    | simp only [mapParts,Node.traverse,traverse_list_pure,traverse_option_pure,pure_bind,Id.run_pure,relabelOwn,
        Write.item,startsWithWord_relabel]
  case importDecl s t specifiers source facts => exact importDecl hemit specifiers source facts
  case importDefault s id => exact text _
  case importNamespace s id => exact (text _).bind fun _ => gap.bind fun _ => text _
  case importNamed s id imported t =>
    cases imported with
    | none => exact text _
    | some n => exact (hemit n).bind fun _ => (text _).bind fun _ => text _
  case exportNamed s t specifiers source facts => exact exportNamed hemit specifiers source facts
  case exportSpecifier s inner exported t =>
    cases exported with
    | none => exact hemit inner
    | some n => exact (hemit inner).bind fun _ => (text _).bind fun _ => hemit n
  case exportNamespace s name =>
    exact (text _).bind fun _ => gap.bind fun _ => (text _).bind fun _ => hemit name
  case exportAll s t source facts =>
    refine (text _).bind fun _ => gap.bind fun _ => (text _).bind fun _ => gap.bind fun _ => (text _).bind fun _ => ?_
    exact gap.bind fun _ => (hemit source).bind fun _ => (attributes hemit facts).bind fun _ => text _
  case exportDecl s d | exportDefaultDecl s d => exact (text _).bind fun _ => hemit d
  case exportDefault s e =>
    exact (text _).bind fun _ => (gapBefore _).bind fun _ => (hemit e).bind fun _ => text _

theorem node (depth : Nat) : SketchesEach (Write.node depth) := by
  induction depth with
  | zero => exact fun n => pure ()
  | succ depth ih =>
    intro n
    simp only [Write.node,span_relabel]
    exact (leading _).bind fun _ => (item ih n).bind fun _ => trailing _

theorem module (m : Module) : Sketches fun g => Write.module (m.relabel g) := by
  have hitem (n : Node) : Sketches fun g => (Write.node (n.relabel g).depth (n.relabel g) >>= fun _ =>
      Write.line) := by
    simp only [depth_relabel]
    exact (node n.depth n).bind fun _ => line
  have hbody := (all (w := fun n => Write.node n.depth n >>= fun _ => Write.line) hitem m.body).bind fun _ =>
    trailing m.span.hi
  simp only [Write.module,Module.relabel]
  refine (leading _).bind fun _ => ?_
  cases m.shebang with
  | none => exact hbody
  | some s => exact (text _).bind fun _ => lineEnd.bind fun _ => hbody

end Sketches

end Write

/-- The text of a module is a sketch with the texts in its places that the compiler has put into the tree. -/
theorem Module.exists_sketch_of_print (m : Module) (isBrief : Bool) (comments : Comments) :
    ∃ sketch : Sketch, ∀ g : String → String,
      (m.relabel g).print isBrief comments = sketch.fill (Write.quoted ∘ g) := by
  obtain ⟨_,sketch,page,h⟩ := Write.Sketches.module m [] { isBrief, comments }
  exact ⟨sketch,fun g => congrArg (fun r => r.2.out) (h g)⟩

end PreviewCompiler.Script
