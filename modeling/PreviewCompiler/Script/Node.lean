import PreviewCompiler.Script.Source

namespace PreviewCompiler.Script

/-- A name together with the scope whose binding it means; `Scope` numbers are given out when the
names of a module are resolved. -/
structure Ident where
  name : String
  span : Span
  scope : Nat := 0
  deriving DecidableEq, Repr, Inhabited

namespace Ident

def key (i : Ident) : String × Nat := (i.name,i.scope)

end Ident

inductive Literal where
  | null
  | bool (value : Bool)
  | number (raw : String)
  | bigint (raw : String)
  /-- `raw` is what the author wrote, with its quotes; text that the compiler made has none. -/
  | string (value : String) (raw : Option String)
  | regex (body flags : String)
  deriving DecidableEq, Repr, Inhabited

inductive VariableKind where
  | var | «let» | const
  deriving DecidableEq, Repr

inductive MethodKind where
  | plain | getter | setter | constructor
  deriving DecidableEq, Repr

/-- One type for expressions, patterns, statements and markup, which the grammar cannot tell apart while it
reads: a parameter list may have been read as a parenthesized expression. -/
inductive Node where
  | ident (id : Ident)
  | keyName (span : Span) (name : String)
  | privateName (span : Span) (name : String)
  | computedName (span : Span) (expr : Node)
  | thisWord (span : Span)
  | superWord (span : Span)
  | importWord (span : Span)
  | importMeta (span : Span)
  | newTarget (span : Span)
  | literal (span : Span) (value : Literal)
  | invalid (span : Span)
  | template (span : Span) (texts : List String) (values : List Node)
  | tagged (span : Span) (tag : Node) (template : Node)
  | array (span : Span) (elements : List Node)
  | hole
  | object (span : Span) (properties : List Node)
  | property (key : Node) (value : Node)
  | shorthand (id : Ident)
  | shorthandDefault (span : Span) (id : Ident) (value : Node)
  | method (span : Span) (kind : MethodKind) (key : Node) (function : Node)
  | spread (dots : Span) (value : Node)
  | function (span : Span) (name : Option Ident) (isAsync isGenerator : Bool)
      (params : List Node) (body : Option Node)
  | arrow (span : Span) (isAsync : Bool) (params : List Node) (body : Node)
  | classValue (span : Span) (name : Option Ident) (superclass : Option Node)
      (members : List Node)
  | unary (span : Span) (op : String) (arg : Node)
  | update (span : Span) (op : String) (leads : Bool) (arg : Node)
  | binary (span : Span) (op : String) (left right : Node)
  | assign (span : Span) (op : String) (target value : Node)
  | conditional (span : Span) (test yes no : Node)
  | member (span : Span) (object : Node) (name : Node)
  | index (span : Span) (object : Node) (key : Node)
  | call (span : Span) (callee : Node) (args : List Node)
  | construct (span : Span) (callee : Node) (args : List Node) (hasArgs : Bool)
  | chain (span : Span) (optional : Bool) (base : Node)
  | sequence (span : Span) (exprs : List Node)
  | paren (span : Span) (expr : Node)
  | await (span : Span) (expr : Node)
  | yield (span : Span) (delegate : Bool) (value : Option Node)
  /-- A value to which types were applied: a conversion, an assertion, type arguments. -/
  | typed (span : Span) (value : Node)
  | element (span : Span) (name : Node) (attributes : List Node) (children : List Node)
  | fragment (span : Span) (children : List Node)
  | tagNamespaced (span : Span) (space name : String)
  | tagAttribute (span : Span) (name : Node) (value : Option Node)
  | tagText (span : Span) (value : String)
  | container (span : Span) (expr : Option Node)
  | spreadChild (span : Span) (value : Node)
  | arrayPattern (span : Span) (elements : List Node)
  | objectPattern (span : Span) (properties : List Node)
  | withDefault (span : Span) (target value : Node)
  | rest (span : Span) (target : Node)
  | shorthandPattern (span : Span) (id : Ident) (value : Option Node)
  | exprStatement (span : Span) (expr : Node)
  | empty (span : Span)
  | block (span : Span) (body : List Node)
  | variableDecl (span : Span) (kind : VariableKind) (isDeclare : Bool) (declarators : List Node)
  | declarator (span : Span) (target : Node) (init : Option Node)
  /-- A function that is declared, or only described if `isDeclare`; the name is not repeated in the
  function. -/
  | functionDecl (isDeclare : Bool) (name : Option Ident) (function : Node)
  | classDecl (isDeclare : Bool) (name : Option Ident) (value : Node)
  | returnStatement (span : Span) (value : Option Node)
  | ifStatement (span : Span) (test yes : Node) (no : Option Node)
  | whileStatement (span : Span) (test body : Node)
  | doStatement (span : Span) (body test : Node)
  | forStatement (span : Span) (init test update : Option Node) (body : Node)
  | forIn (span : Span) (left right body : Node)
  | forOf (span : Span) (isAwait : Bool) (left right body : Node)
  | throwStatement (span : Span) (value : Node)
  | tryStatement (span : Span) (block : Node) (handler finalizer : Option Node)
  | catchClause (span : Span) (param : Option Node) (body : Node)
  | switchStatement (span : Span) (subject : Node) (cases : List Node)
  | switchCase (span : Span) (test : Option Node) (body : List Node)
  | breakStatement (span : Span) (label : Option Ident)
  | continueStatement (span : Span) (label : Option Ident)
  | labelled (span : Span) (label : Ident) (body : Node)
  | debuggerStatement (span : Span)
  /-- A declaration of types alone, which leaves nothing in the program. -/
  | typeDecl (span : Span) (name : Option Ident)
  | classMethod (span : Span) (kind : MethodKind) (isStatic isAbstract : Bool) (key : Node)
      (function : Node)
  | classField (span : Span) (isStatic isErased : Bool) (key : Node) (value : Option Node)
  | staticBlock (span : Span) (body : Node)
  | typeMember (span : Span)
  | importDecl (span : Span) (typeOnly : Bool) (specifiers : List Node) (source : Node)
      (attributes : Option Node)
  | importDefault (span : Span) (id : Ident)
  | importNamespace (span : Span) (id : Ident)
  | importNamed (span : Span) (id : Ident) (imported : Option Node) (typeOnly : Bool)
  | exportDecl (span : Span) (decl : Node)
  | exportDefaultDecl (span : Span) (decl : Node)
  | exportDefault (span : Span) (expr : Node)
  | exportNamed (span : Span) (typeOnly : Bool) (specifiers : List Node) (source : Option Node)
      (attributes : Option Node)
  | exportSpecifier (span : Span) (local_ : Node) (exported : Option Node) (typeOnly : Bool)
  | exportNamespace (span : Span) (name : Node)
  | exportAll (span : Span) (typeOnly : Bool) (source : Node) (attributes : Option Node)
  deriving Repr, Inhabited

namespace Node

/-- The span of a node; that of a property reaches from its key to its value. -/
def span : Node → Span
  | ident id => id.span
  | keyName s _ | privateName s _ | computedName s _ | thisWord s | superWord s | importWord s
  | importMeta s | newTarget s | literal s _ | invalid s | template s .. | tagged s .. | array s _
  | object s _ | shorthandDefault s .. | method s .. | function s .. | arrow s .. | classValue s ..
  | unary s .. | update s .. | binary s .. | assign s .. | conditional s .. | member s .. | index s ..
  | call s .. | construct s .. | chain s .. | sequence s _ | paren s _ | await s _ | yield s ..
  | typed s _ | element s .. | fragment s _ | tagNamespaced s .. | tagAttribute s .. | tagText s _
  | container s _ | spreadChild s _ | arrayPattern s _ | objectPattern s _ | withDefault s ..
  | rest s _ | shorthandPattern s .. | exprStatement s _ | empty s | block s _ | variableDecl s ..
  | declarator s .. | returnStatement s _ | ifStatement s .. | whileStatement s .. | doStatement s ..
  | forStatement s .. | forIn s .. | forOf s .. | throwStatement s _ | tryStatement s .. | catchClause s ..
  | switchStatement s .. | switchCase s .. | breakStatement s _ | continueStatement s _
  | labelled s .. | debuggerStatement s | typeDecl s _ | classMethod s ..
  | classField s .. | staticBlock s _ | typeMember s | importDecl s .. | importDefault s _
  | importNamespace s _ | importNamed s .. | exportDecl s _ | exportDefaultDecl s _
  | exportDefault s _ | exportNamed s .. | exportSpecifier s .. | exportNamespace s _
  | exportAll s .. => s
  | hole => Span.synthetic
  | shorthand id => id.span
  | property key value => ⟨key.span.lo,value.span.hi⟩
  | spread dots value => ⟨dots.lo,value.span.hi⟩
  | functionDecl _ _ f => f.span
  | classDecl _ _ c => c.span

/-- Run `f` on the direct parts of a node, in the order of the source, and put the results in the
places of the parts. -/
def traverse {m : Type → Type} [Monad m] (n : Node)
    (f : (part : Node) → sizeOf part < sizeOf n → m Node) : m Node :=
  match n, f with
  | computedName s e, f => return computedName s (← f e (by rw [computedName.sizeOf_spec]; omega))
  | template s ts vs, f =>
    return template s ts (← list vs fun v h => f v (by rw [template.sizeOf_spec]; omega))
  | tagged s t q, f =>
    return tagged s (← f t (by rw [tagged.sizeOf_spec]; omega))
      (← f q (by rw [tagged.sizeOf_spec]; omega))
  | array s es, f => return array s (← list es fun v h => f v (by rw [array.sizeOf_spec]; omega))
  | object s ps, f => return object s (← list ps fun v h => f v (by rw [object.sizeOf_spec]; omega))
  | property k v, f =>
    return property (← f k (by rw [property.sizeOf_spec]; omega))
      (← f v (by rw [property.sizeOf_spec]; omega))
  | shorthandDefault s i v, f =>
    return shorthandDefault s i (← f v (by rw [shorthandDefault.sizeOf_spec]; omega))
  | method s kd k fn, f =>
    return method s kd (← f k (by rw [method.sizeOf_spec]; omega))
      (← f fn (by rw [method.sizeOf_spec]; omega))
  | spread s v, f => return spread s (← f v (by rw [spread.sizeOf_spec]; omega))
  | function s nm a g ps b, f =>
    return function s nm a g (← list ps fun v h => f v (by rw [function.sizeOf_spec]; omega))
      (← option b fun v h => f v (by rw [function.sizeOf_spec]; omega))
  | arrow s a ps b, f =>
    return arrow s a (← list ps fun v h => f v (by rw [arrow.sizeOf_spec]; omega))
      (← f b (by rw [arrow.sizeOf_spec]; omega))
  | classValue s nm sup ms, f =>
    return classValue s nm (← option sup fun v h => f v (by rw [classValue.sizeOf_spec]; omega))
      (← list ms fun v h => f v (by rw [classValue.sizeOf_spec]; omega))
  | unary s o a, f => return unary s o (← f a (by rw [unary.sizeOf_spec]; omega))
  | update s o l a, f => return update s o l (← f a (by rw [update.sizeOf_spec]; omega))
  | binary s o l r, f =>
    return binary s o (← f l (by rw [binary.sizeOf_spec]; omega))
      (← f r (by rw [binary.sizeOf_spec]; omega))
  | assign s o t v, f =>
    return assign s o (← f t (by rw [assign.sizeOf_spec]; omega))
      (← f v (by rw [assign.sizeOf_spec]; omega))
  | conditional s t y e, f =>
    return conditional s (← f t (by rw [conditional.sizeOf_spec]; omega))
      (← f y (by rw [conditional.sizeOf_spec]; omega)) (← f e (by rw [conditional.sizeOf_spec]; omega))
  | member s o nm, f =>
    return member s (← f o (by rw [member.sizeOf_spec]; omega))
      (← f nm (by rw [member.sizeOf_spec]; omega))
  | index s o k, f =>
    return index s (← f o (by rw [index.sizeOf_spec]; omega)) (← f k (by rw [index.sizeOf_spec]; omega))
  | call s c as, f =>
    return call s (← f c (by rw [call.sizeOf_spec]; omega))
      (← list as fun v h => f v (by rw [call.sizeOf_spec]; omega))
  | construct s c as ha, f =>
    return construct s (← f c (by rw [construct.sizeOf_spec]; omega))
      (← list as fun v h => f v (by rw [construct.sizeOf_spec]; omega)) ha
  | chain s o b, f => return chain s o (← f b (by rw [chain.sizeOf_spec]; omega))
  | sequence s es, f =>
    return sequence s (← list es fun v h => f v (by rw [sequence.sizeOf_spec]; omega))
  | paren s e, f => return paren s (← f e (by rw [paren.sizeOf_spec]; omega))
  | await s e, f => return await s (← f e (by rw [await.sizeOf_spec]; omega))
  | yield s d v, f => return yield s d (← option v fun v h => f v (by rw [yield.sizeOf_spec]; omega))
  | typed s v, f => return typed s (← f v (by rw [typed.sizeOf_spec]; omega))
  | element s nm as cs, f =>
    return element s (← f nm (by rw [element.sizeOf_spec]; omega))
      (← list as fun v h => f v (by rw [element.sizeOf_spec]; omega))
      (← list cs fun v h => f v (by rw [element.sizeOf_spec]; omega))
  | fragment s cs, f =>
    return fragment s (← list cs fun v h => f v (by rw [fragment.sizeOf_spec]; omega))
  | tagAttribute s nm v, f =>
    return tagAttribute s (← f nm (by rw [tagAttribute.sizeOf_spec]; omega))
      (← option v fun v h => f v (by rw [tagAttribute.sizeOf_spec]; omega))
  | container s e, f =>
    return container s (← option e fun v h => f v (by rw [container.sizeOf_spec]; omega))
  | spreadChild s v, f => return spreadChild s (← f v (by rw [spreadChild.sizeOf_spec]; omega))
  | arrayPattern s es, f =>
    return arrayPattern s (← list es fun v h => f v (by rw [arrayPattern.sizeOf_spec]; omega))
  | objectPattern s ps, f =>
    return objectPattern s (← list ps fun v h => f v (by rw [objectPattern.sizeOf_spec]; omega))
  | withDefault s t v, f =>
    return withDefault s (← f t (by rw [withDefault.sizeOf_spec]; omega))
      (← f v (by rw [withDefault.sizeOf_spec]; omega))
  | rest s t, f => return rest s (← f t (by rw [rest.sizeOf_spec]; omega))
  | shorthandPattern s i v, f =>
    return shorthandPattern s i (← option v fun v h => f v (by rw [shorthandPattern.sizeOf_spec]; omega))
  | exprStatement s e, f => return exprStatement s (← f e (by rw [exprStatement.sizeOf_spec]; omega))
  | block s b, f => return block s (← list b fun v h => f v (by rw [block.sizeOf_spec]; omega))
  | variableDecl s k d ds, f =>
    return variableDecl s k d (← list ds fun v h => f v (by rw [variableDecl.sizeOf_spec]; omega))
  | declarator s t i, f =>
    return declarator s (← f t (by rw [declarator.sizeOf_spec]; omega))
      (← option i fun v h => f v (by rw [declarator.sizeOf_spec]; omega))
  | functionDecl d nm fn, f =>
    return functionDecl d nm (← f fn (by rw [functionDecl.sizeOf_spec]; omega))
  | classDecl d nm c, f => return classDecl d nm (← f c (by rw [classDecl.sizeOf_spec]; omega))
  | returnStatement s v, f =>
    return returnStatement s (← option v fun v h => f v (by rw [returnStatement.sizeOf_spec]; omega))
  | ifStatement s t y e, f =>
    return ifStatement s (← f t (by rw [ifStatement.sizeOf_spec]; omega))
      (← f y (by rw [ifStatement.sizeOf_spec]; omega))
      (← option e fun v h => f v (by rw [ifStatement.sizeOf_spec]; omega))
  | whileStatement s t b, f =>
    return whileStatement s (← f t (by rw [whileStatement.sizeOf_spec]; omega))
      (← f b (by rw [whileStatement.sizeOf_spec]; omega))
  | doStatement s b t, f =>
    return doStatement s (← f b (by rw [doStatement.sizeOf_spec]; omega))
      (← f t (by rw [doStatement.sizeOf_spec]; omega))
  | forStatement s i t u b, f =>
    return forStatement s (← option i fun v h => f v (by rw [forStatement.sizeOf_spec]; omega))
      (← option t fun v h => f v (by rw [forStatement.sizeOf_spec]; omega))
      (← option u fun v h => f v (by rw [forStatement.sizeOf_spec]; omega))
      (← f b (by rw [forStatement.sizeOf_spec]; omega))
  | forIn s l r b, f =>
    return forIn s (← f l (by rw [forIn.sizeOf_spec]; omega)) (← f r (by rw [forIn.sizeOf_spec]; omega))
      (← f b (by rw [forIn.sizeOf_spec]; omega))
  | forOf s a l r b, f =>
    return forOf s a (← f l (by rw [forOf.sizeOf_spec]; omega))
      (← f r (by rw [forOf.sizeOf_spec]; omega)) (← f b (by rw [forOf.sizeOf_spec]; omega))
  | throwStatement s v, f => return throwStatement s (← f v (by rw [throwStatement.sizeOf_spec]; omega))
  | tryStatement s b c e, f =>
    return tryStatement s (← f b (by rw [tryStatement.sizeOf_spec]; omega))
      (← option c fun v h => f v (by rw [tryStatement.sizeOf_spec]; omega))
      (← option e fun v h => f v (by rw [tryStatement.sizeOf_spec]; omega))
  | catchClause s p b, f =>
    return catchClause s (← option p fun v h => f v (by rw [catchClause.sizeOf_spec]; omega))
      (← f b (by rw [catchClause.sizeOf_spec]; omega))
  | switchStatement s e cs, f =>
    return switchStatement s (← f e (by rw [switchStatement.sizeOf_spec]; omega))
      (← list cs fun v h => f v (by rw [switchStatement.sizeOf_spec]; omega))
  | switchCase s t b, f =>
    return switchCase s (← option t fun v h => f v (by rw [switchCase.sizeOf_spec]; omega))
      (← list b fun v h => f v (by rw [switchCase.sizeOf_spec]; omega))
  | labelled s l b, f => return labelled s l (← f b (by rw [labelled.sizeOf_spec]; omega))
  | classMethod s kd st ab k fn, f =>
    return classMethod s kd st ab (← f k (by rw [classMethod.sizeOf_spec]; omega))
      (← f fn (by rw [classMethod.sizeOf_spec]; omega))
  | classField s st er k v, f =>
    return classField s st er (← f k (by rw [classField.sizeOf_spec]; omega))
      (← option v fun v h => f v (by rw [classField.sizeOf_spec]; omega))
  | staticBlock s b, f => return staticBlock s (← f b (by rw [staticBlock.sizeOf_spec]; omega))
  | importDecl s t sp src at_, f =>
    return importDecl s t (← list sp fun v h => f v (by rw [importDecl.sizeOf_spec]; omega))
      (← f src (by rw [importDecl.sizeOf_spec]; omega))
      (← option at_ fun v h => f v (by rw [importDecl.sizeOf_spec]; omega))
  | importNamed s i im t, f =>
    return importNamed s i (← option im fun v h => f v (by rw [importNamed.sizeOf_spec]; omega)) t
  | exportDecl s d, f => return exportDecl s (← f d (by rw [exportDecl.sizeOf_spec]; omega))
  | exportDefaultDecl s d, f =>
    return exportDefaultDecl s (← f d (by rw [exportDefaultDecl.sizeOf_spec]; omega))
  | exportDefault s e, f => return exportDefault s (← f e (by rw [exportDefault.sizeOf_spec]; omega))
  | exportNamed s t sp src at_, f =>
    return exportNamed s t (← list sp fun v h => f v (by rw [exportNamed.sizeOf_spec]; omega))
      (← option src fun v h => f v (by rw [exportNamed.sizeOf_spec]; omega))
      (← option at_ fun v h => f v (by rw [exportNamed.sizeOf_spec]; omega))
  | exportSpecifier s l e t, f =>
    return exportSpecifier s (← f l (by rw [exportSpecifier.sizeOf_spec]; omega))
      (← option e fun v h => f v (by rw [exportSpecifier.sizeOf_spec]; omega)) t
  | exportNamespace s nm, f =>
    return exportNamespace s (← f nm (by rw [exportNamespace.sizeOf_spec]; omega))
  | exportAll s t src at_, f =>
    return exportAll s t (← f src (by rw [exportAll.sizeOf_spec]; omega))
      (← option at_ fun v h => f v (by rw [exportAll.sizeOf_spec]; omega))
  | n, _ => return n
where
  list {m : Type → Type} [Monad m] (ns : List Node)
      (f : (part : Node) → sizeOf part < sizeOf ns → m Node) : m (List Node) :=
    match ns, f with
    | [], _ => return []
    | n :: ns, f =>
      return (← f n (by rw [List.cons.sizeOf_spec]; omega))
        :: (← list ns fun v h => f v (by rw [List.cons.sizeOf_spec]; omega))
  option {m : Type → Type} [Monad m] (o : Option Node)
      (f : (part : Node) → sizeOf part < sizeOf o → m Node) : m (Option Node) :=
    match o, f with
    | none, _ => return none
    | some n, f => return some (← f n (by rw [Option.some.sizeOf_spec]; omega))

def parts (n : Node) : List Node :=
  ((n.traverse (m := StateM (List Node)) fun part _ => do
    modify (· ++ [part])
    return part).run []).2

/-- The tree with every node replaced by `f` of it, the parts first. -/
def rebuild (f : Node → Node) (n : Node) : Node :=
  f (Id.run (n.traverse fun part _ => rebuild f part))
termination_by sizeOf n

def depth (n : Node) : Nat :=
  let below := ((n.traverse (m := StateM Nat) fun part _ => do
    modify (max (depth part))
    return part).run 0).2
  below + 1
termination_by sizeOf n

def asDeclaration (isDeclare : Bool) : Node → Node
  | function s nm a g ps b => functionDecl isDeclare nm (function s none a g ps b)
  | classValue s nm sup ms => classDecl isDeclare nm (classValue s none sup ms)
  | n => n

def isRuntime : Node → Bool
  | typeDecl .. | empty _ => false
  | variableDecl _ _ isDeclare _ => !isDeclare
  | functionDecl isDeclare _ (function _ _ _ _ _ body) => !isDeclare && body.isSome
  | functionDecl isDeclare .. | classDecl isDeclare .. => !isDeclare
  | exportDecl _ d | exportDefaultDecl _ d => isRuntime d
  | _ => true

def stringValue? : Node → Option String
  | literal _ (.string v _) => some v
  | _ => none

end Node

/-- A module: its first line for the operating system, if any, and its items. -/
structure Module where
  span : Span
  shebang : Option String
  body : List Node
  deriving Inhabited

end PreviewCompiler.Script
