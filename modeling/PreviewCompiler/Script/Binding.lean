import PreviewCompiler.Script.Node

namespace PreviewCompiler.Script

namespace Scope

/-- What no scope of the module declares. -/
def unresolved : Nat := 0

def module : Nat := 1

/-- Variables that the compiler adds. -/
def generated : Nat := 2

def firstInner : Nat := 3

end Scope

namespace Node

def boundIdents (target : Node) : List Ident :=
  match target with
  | ident id => [id]
  | arrayPattern _ es => (es.attach.map fun ⟨e,_⟩ => boundIdents e).flatten
  | objectPattern _ ps => (ps.attach.map fun ⟨p,_⟩ => boundIdents p).flatten
  | property _ value => boundIdents value
  | shorthandPattern _ id _ => [id]
  | withDefault _ target _ => boundIdents target
  | rest _ target => boundIdents target
  | _ => []
termination_by sizeOf target
decreasing_by
  all_goals simp_wf
  all_goals try omega
  all_goals have := List.sizeOf_lt_of_mem ‹_›; omega

def declaredIdents (declarators : List Node) : List Ident :=
  declarators.flatMap fun
    | declarator _ target _ => target.boundIdents
    | _ => []

def importedIdent? : Node → Option Ident
  | importDefault _ id | importNamespace _ id | importNamed _ id .. => some id
  | _ => none

/-- What a statement declares in the scope that it stands in, variables with `var` apart. -/
def lexicalIdents : Node → List Ident
  | variableDecl _ .var .. => []
  | variableDecl _ _ _ ds => declaredIdents ds
  | functionDecl _ name _ | classDecl _ name _ | typeDecl _ name => name.toList
  | exportDecl _ d | exportDefaultDecl _ d => lexicalIdents d
  | importDecl _ _ specifiers .. => specifiers.filterMap importedIdent?
  | _ => []

/-- What declarations with `var` below a node declare in the function around them. -/
def hoistedIdents (n : Node) : List Ident :=
  match n with
  | function .. | arrow .. | classValue .. => []
  | variableDecl _ .var _ ds => declaredIdents ds
  | n =>
    ((n.traverse (m := StateM (List Ident)) fun part _ => do
      modify (· ++ hoistedIdents part)
      return part).run []).2
termination_by sizeOf n

/-- What a node declares for its own parts, if it is a scope. -/
def ownIdents? : Node → Option (List Ident)
  | function _ name _ _ params body =>
    some (name.toList ++ params.flatMap boundIdents ++ body.toList.flatMap hoistedIdents)
  | arrow _ _ params body => some (params.flatMap boundIdents ++ body.hoistedIdents)
  | classValue _ name .. => some name.toList
  | block _ body => some (body.flatMap lexicalIdents)
  | forStatement _ init .. => some (init.toList.flatMap lexicalIdents)
  | forIn _ left .. | forOf _ _ left .. => some left.lexicalIdents
  | switchStatement _ _ cases => some (cases.flatMap fun
    | switchCase _ _ body => body.flatMap lexicalIdents
    | _ => [])
  | catchClause _ param _ => some (param.toList.flatMap boundIdents)
  | _ => none

/-- Run `f` on the identifiers that a node holds itself and put the results in their places. -/
def traverseIdents {m : Type → Type} [Monad m] (f : Ident → m Ident) : Node → m Node
  | ident id => return ident (← f id)
  | shorthand id => return shorthand (← f id)
  | shorthandDefault s id v => return shorthandDefault s (← f id) v
  | shorthandPattern s id v => return shorthandPattern s (← f id) v
  | function s name a g ps b => return function s (← name.mapM f) a g ps b
  | classValue s name sup ms => return classValue s (← name.mapM f) sup ms
  | functionDecl d name fn => return functionDecl d (← name.mapM f) fn
  | classDecl d name c => return classDecl d (← name.mapM f) c
  | typeDecl s name => return typeDecl s (← name.mapM f)
  | importDefault s id => return importDefault s (← f id)
  | importNamespace s id => return importNamespace s (← f id)
  | importNamed s id imported t => return importNamed s (← f id) imported t
  | n => return n

def mapIdents (f : Ident → Ident) (n : Node) : Node := Id.run (n.traverseIdents fun id => f id)

def allIdents (n : Node) : List Ident :=
  let own := ((n.traverseIdents (m := StateM (List Ident)) fun id => do
    modify (id :: ·)
    return id).run []).2
  own ++ ((n.traverse (m := StateM (List Ident)) fun part _ => do
    modify (· ++ allIdents part)
    return part).run []).2
termination_by sizeOf n

end Node

/-- The scopes around a place, the innermost first: the names that each declares, and its number. -/
abbrev Scopes := List (List String × Nat)

/-- The identifier with the scope that binds it. -/
def Scopes.bind (scopes : Scopes) (id : Ident) : Ident :=
  { id with
    scope := ((scopes.find? fun s => s.1.contains id.name).map (·.2)).getD Scope.unresolved }

/-- Resolve the identifiers below a node; the state is the next free scope number. -/
def Node.resolve (scopes : Scopes) (n : Node) : StateM Nat Node := do
  match n.ownIdents? with
  | some ids =>
    let number ← modifyGet fun k => (k,k + 1)
    let inner : Scopes := (ids.map (·.name),number) :: scopes
    return (← n.traverse fun part _ => resolve inner part).mapIdents inner.bind
  | none => return (← n.traverse fun part _ => resolve scopes part).mapIdents scopes.bind
termination_by sizeOf n

def Module.declaredIdents (m : Module) : List Ident :=
  m.body.flatMap Node.lexicalIdents ++ m.body.flatMap Node.hoistedIdents

/-- Give every scope a number and write into each identifier the number of the scope that binds it: two
identifiers mean the same variable exactly if they have one `Ident.key`. -/
def Module.resolve (m : Module) : Module :=
  let scopes : Scopes := [(m.declaredIdents.map (·.name),Scope.module)]
  { m with body := ((m.body.mapM (Node.resolve scopes)).run Scope.firstInner).1 }

end PreviewCompiler.Script
