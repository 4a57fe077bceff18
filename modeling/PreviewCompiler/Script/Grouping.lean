import PreviewCompiler.Script.Node
import PreviewCompiler.Script.Comment
import PreviewCompiler.Script.Token

namespace PreviewCompiler.Script

/-- Parentheses that were dropped: the span of what was inside, and their own. -/
abbrev Grouping := StateM (List (Span × Span))

namespace Node

def ungroup (n : Node) : Grouping Node := do
  match n with
  | paren s e =>
    modify (· ++ [(e.span,s)])
    ungroup e
  | n => n.traverse fun part _ => ungroup part
termination_by sizeOf n

/-- Put a node in parentheses; those of the author come back with their span. -/
def group (n : Node) : Grouping Node := do
  let dropped ← get
  match dropped.lookup n.span with
  | some s =>
    set (dropped.eraseP (·.1 == n.span))
    return paren s n
  | none => return paren n.span n

def groupIf (condition : Node → Bool) (n : Node) : Grouping Node :=
  if condition n then n.group else return n

def isSequence : Node → Bool
  | sequence .. => true
  | _ => false

def isArrow : Node → Bool
  | arrow .. => true
  | _ => false

/-- A value that an assignment, a jump or a function without a name of its own ends. -/
def isOpenEnded : Node → Bool
  | assign .. | yield .. | arrow .. | sequence .. | conditional .. => true
  | _ => false

/-- A value that starts like a statement. -/
def startsStatement : Node → Bool
  | object .. | function .. | classValue .. => true
  | _ => false

def startsDeclaration : Node → Bool
  | function .. | classValue .. => true
  | _ => false

def isObject : Node → Bool
  | object .. => true
  | _ => false

/-- An assignment to a pattern in braces. -/
def assignsObject : Node → Bool
  | assign _ _ (objectPattern ..) _ => true
  | _ => false

/-- A value whose members cannot be asked for without parentheses around it. -/
def hidesMembers : Node → Bool
  | unary .. | update .. | binary .. | assign .. | conditional .. | sequence .. | arrow .. | yield ..
  | await .. | construct _ _ _ false | chain .. => true
  | n => startsStatement n

/-- A value that cannot be called without parentheses around it. -/
def hidesCalls : Node → Bool
  | function .. => false
  | n => hidesMembers n

/-- Is there a call on the way to the value whose member is asked for? -/
def callsFirst : Node → Bool
  | call .. => true
  | member _ o _ | index _ o _ => callsFirst o
  | tagged _ tag _ => callsFirst tag
  | _ => false

/-- Change the first node on the way down the left side that `condition` holds of. -/
def atLeftmost (condition : Node → Bool) (f : Node → Grouping Node) (n : Node) : Grouping Node := do
  if condition n then f n
  else
    match n with
    | member s o nm => return member s (← atLeftmost condition f o) nm
    | index s o k => return index s (← atLeftmost condition f o) k
    | call s c as => return call s (← atLeftmost condition f c) as
    | binary s op l r => return binary s op (← atLeftmost condition f l) r
    | conditional s t y e => return conditional s (← atLeftmost condition f t) y e
    | assign s op t v => return assign s op (← atLeftmost condition f t) v
    | tagged s t q => return tagged s (← atLeftmost condition f t) q
    | update s op false a => return update s op false (← atLeftmost condition f a)
    | chain s o b => return chain s o (← atLeftmost condition f b)
    | sequence s (e :: es) => return sequence s ((← atLeftmost condition f e) :: es)
    | n => return n

def strength (op : String) : Nat := (operatorStrength.lookup op).getD 7

/-- Operators whose operands may be grouped either way. -/
def isAssociative (op : String) : Bool := ["&&","||","**"].contains op

/-- `??` does not stand beside the other logical operators. -/
def mixesNullish (outer inner : String) : Bool :=
  (outer == "??" && (inner == "&&" || inner == "||"))
    || (inner == "??" && (outer == "&&" || outer == "||"))

def groupsRight (op : String) : Node → Bool
  | binary _ inner _ _ =>
    if inner == op then !isAssociative op
    else strength inner ≤ strength op || mixesNullish op inner
  | n => isOpenEnded n

def groupsLeft (op : String) : Node → Bool
  | binary _ inner _ _ =>
    strength inner < strength op || (op == "**" && inner == "**") || mixesNullish op inner
  | unary .. | await .. => op == "**"
  | n => isOpenEnded n

def groupsOperand : Node → Bool
  | binary .. => true
  | n => isOpenEnded n

def groupsBranch : Node → Bool := isSequence

def groupItem (n : Node) : Grouping Node := n.groupIf isSequence

def groupObject (n : Node) : Grouping Node := n.groupIf hidesMembers

/-- Put parentheses around the parts of a node that need them. -/
def groupParts : Node → Grouping Node
  | exportDefault s e =>
    return exportDefault s
      (← if e.isArrow || e.isSequence then e.group else e.atLeftmost startsDeclaration group)
  | exprStatement s e =>
    return exprStatement s
      (← if e.assignsObject then e.group else e.atLeftmost startsStatement group)
  | arrow s a ps b =>
    return arrow s a ps
      (← if b.isSequence || b.assignsObject then b.group else b.atLeftmost isObject group)
  | binary s op l r => return binary s op (← l.groupIf (groupsLeft op)) (← r.groupIf (groupsRight op))
  | conditional s t y n =>
    return conditional s (← t.groupIf isOpenEnded) (← y.groupIf groupsBranch)
      (← n.groupIf groupsBranch)
  | unary s op a => return unary s op (← a.groupIf groupsOperand)
  | await s e => return await s (← e.groupIf groupsOperand)
  | call s c as => return call s (← c.groupIf hidesCalls) (← as.mapM groupItem)
  | construct s c as ha =>
    return construct s (← c.groupIf fun c => hidesCalls c || callsFirst c) (← as.mapM groupItem) ha
  | member s o nm => return member s (← o.groupObject) nm
  | index s o k => return index s (← o.groupObject) k
  | tagged s t q => return tagged s (← t.groupObject) q
  | classValue s name (some sup) ms => return classValue s name (some (← sup.groupIf hidesCalls)) ms
  | array s es => return array s (← es.mapM groupItem)
  | property k v => return property k (← v.groupItem)
  | spread dots v => return spread dots (← v.groupItem)
  | assign s op t v => return assign s op t (← v.groupItem)
  | declarator s t (some v) => return declarator s t (some (← v.groupItem))
  | withDefault s t v => return withDefault s t (← v.groupItem)
  | shorthandPattern s id (some v) => return shorthandPattern s id (some (← v.groupItem))
  | classField s st er k (some v) => return classField s st er k (some (← v.groupItem))
  | yield s d (some v) => return yield s d (some (← v.groupItem))
  | forOf s a l r b => return forOf s a l (← r.groupItem) b
  | ifStatement s t (ifStatement ys yt yy yn) no =>
    return ifStatement s t (block ys [ifStatement ys yt yy yn]) no
  | n => return n

/-- Put parentheses around the parts that need them, everywhere below a node.  The base of an optional
access needs none for being one. -/
def regroup (n : Node) : Grouping Node := do
  match n with
  | chain s optional (member ms (chain is o b) nm) => do
    return chain s optional (member ms (← regroup (chain is o b)) nm)
  | chain s optional (index ms (chain is o b) k) => do
    return chain s optional (index ms (← regroup (chain is o b)) (← regroup k))
  | chain s optional (call cs (chain is o b) as) => do
    return chain s optional
      (call cs (← regroup (chain is o b)) (← as.attach.mapM fun ⟨a,_⟩ => do (← regroup a).groupItem))
  | n => (← n.traverse fun part _ => regroup part).groupParts
termination_by sizeOf n
decreasing_by
  all_goals simp_wf
  all_goals try omega
  all_goals have := List.sizeOf_lt_of_mem ‹_›; omega

end Node

/-- Comments at parentheses that are gone belong to what was inside. -/
def Comments.leaveParens (cs : Comments) (dropped : List (Span × Span)) : Comments :=
  dropped.foldr
    (fun (inner,outer) cs => (cs.moveLeading outer.lo inner.lo).moveTrailing outer.hi inner.hi) cs

/-- The module with the parentheses that its text needs instead of those of the author; comments at
parentheses that do not come back move to what was inside. -/
def Module.regroup (m : Module) (comments : Comments) : Module × Comments :=
  let (body,dropped) := (do
    let body ← m.body.mapM Node.ungroup
    body.mapM Node.regroup : Grouping (List Node)).run []
  ({ m with body },comments.leaveParens dropped)

end PreviewCompiler.Script
