import PreviewCompiler.Script.Binding

namespace PreviewCompiler.Script

/-- What two occurrences of a variable share. -/
abbrev VariableKey := String × Nat

abbrev Naming := List (VariableKey × String)

namespace Naming

/-- The first name that is free, `k` being the next number to try. -/
def freeName (isFree : String → Bool) (name : String) : (fuel k : Nat) → String
  | 0, k => name ++ toString k
  | fuel + 1, k =>
    let candidate := if k = 0 then name else name ++ toString k
    if isFree candidate then candidate else freeName isFree name fuel (k + 1)

/-- Choose names for variables that one scope declares.  `visible` are the variables of the scopes
around it and `used` those that occur in it. -/
def chooseAll (unresolved : List String) (used : List VariableKey) :
    (ids : List Ident) → (visible : Naming) → Naming
  | [], visible => visible
  | id :: ids, visible =>
    if visible.any (·.1 == id.key) then chooseAll unresolved used ids visible
    else
      let isFree (name : String) : Bool :=
        !unresolved.contains name
          && !visible.any fun (key,taken) => taken == name && key != id.key && used.contains key
      let name := freeName isFree id.name (visible.length + unresolved.length + 1) 0
      chooseAll unresolved used ids ((id.key,name) :: visible)

/-- Choose names for the variables of the scopes below a node; the state collects all choices. -/
def chooseBelow (unresolved : List String) (visible : Naming) (n : Node) : StateM Naming Node := do
  match n.ownIdents? with
  | some ids =>
    let inner := chooseAll unresolved (n.allIdents.map Ident.key) ids visible
    modify (inner.take (inner.length - visible.length) ++ ·)
    n.traverse fun part _ => chooseBelow unresolved inner part
  | none => n.traverse fun part _ => chooseBelow unresolved visible part
termination_by sizeOf n

def declaredBelow (n : Node) : List Ident :=
  n.ownIdents?.getD [] ++ ((n.traverse (m := StateM (List Ident)) fun part _ => do
    modify (· ++ declaredBelow part)
    return part).run []).2
termination_by sizeOf n

/-- Names without conflicts.  A variable keeps its name unless another one used in its scope has it already or
a name that the module leaves unresolved would be hidden; else it takes the first free one of its name with
1, 2, … behind it. -/
def ofModule (m : Module) : Naming :=
  let used := m.body.flatMap Node.allIdents
  let declared := (m.declaredIdents ++ m.body.flatMap declaredBelow).map Ident.key
  let unresolved := (used.filter fun id => !declared.contains id.key).map (·.name)
  let top := chooseAll unresolved (used.map Ident.key) m.declaredIdents []
  ((m.body.mapM (chooseBelow unresolved top)).run top).2

def rename (names : Naming) (id : Ident) : Ident :=
  { id with name := (names.lookup id.key).getD id.name }

def isRenamed (names : Naming) (id : Ident) : Bool := (names.rename id).name != id.name

/-- A node in which a name stands for a variable and for something else at once, written such that only
the variable is renamed. -/
def separate (names : Naming) : Node → Node
  | .shorthand id =>
    if names.isRenamed id then .property (.keyName id.span id.name) (.ident id) else .shorthand id
  | .shorthandPattern s id value =>
    if names.isRenamed id then
      .property (.keyName id.span id.name) (match value with
        | some v => .withDefault s (.ident id) v
        | none => .ident id)
    else .shorthandPattern s id value
  | .importNamed s id none isType =>
    .importNamed s id (if names.isRenamed id then some (.keyName id.span id.name) else none) isType
  | .exportSpecifier s (.ident id) none isType =>
    .exportSpecifier s (.ident id)
      (if names.isRenamed id then some (.keyName id.span id.name) else none) isType
  | n => n

/-- An exported declaration whose variables are renamed is exported by a separate item under the names
that it was exported under. -/
def separateExport (names : Naming) : Node → List Node
  | .exportDecl s d =>
    match (d.lexicalIdents ++ d.hoistedIdents).filter names.isRenamed with
    | [] => [.exportDecl s d]
    | ids => [d,.exportNamed Span.synthetic false
        (ids.map fun id =>
          .exportSpecifier Span.synthetic (.ident id) (some (.keyName Span.synthetic id.name)) false)
        none none]
  | n => [n]

def renameBelow (names : Naming) (n : Node) : Node :=
  (n.rebuild names.separate).rebuild (Node.mapIdents names.rename)

end Naming

def Module.withNaming (m : Module) : Module :=
  let names := Naming.ofModule m
  { m with body := (m.body.flatMap names.separateExport).map names.renameBelow }

end PreviewCompiler.Script
