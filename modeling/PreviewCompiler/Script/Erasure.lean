import PreviewCompiler.Script.Binding

namespace PreviewCompiler.Script

namespace Node

/-- Is a member of a class there when the program runs? -/
def isRuntimeMember : Node → Bool
  | typeMember _ => false
  | classMethod _ _ _ isAbstract _ (function _ _ _ _ _ body) => !isAbstract && body.isSome
  | classField _ _ isErased .. => !isErased
  | _ => true

/-- The receiver that a function describes as if it were a parameter. -/
def isReceiver : Node → Bool
  | ident id => id.name == "this"
  | _ => false

/-- A node without types, the parts being without them. -/
def eraseHere : Node → Node
  | typed _ value => value
  | function s name a g params body => function s name a g (params.filter (!isReceiver ·)) body
  | block s body => block s (body.filter isRuntime)
  | switchCase s test body => switchCase s test (body.filter isRuntime)
  | classValue s name sup members => classValue s name sup (members.filter isRuntimeMember)
  | n => n

def usedKeys (n : Node) : List (String × Nat) :=
  match n with
  | importDecl .. | exportNamed _ _ _ (some _) _ => []
  | ident id | shorthand id => [id.key]
  | n =>
    ((n.traverse (m := StateM (List (String × Nat))) fun part _ => do
      modify (· ++ usedKeys part)
      return part).run []).2
termination_by sizeOf n

def isModuleItem : Node → Bool
  | importDecl .. | exportDecl .. | exportDefaultDecl .. | exportDefault .. | exportNamed ..
  | exportAll .. => true
  | _ => false

end Node

structure Declarations where
  used : List (String × Nat)
  /-- Variables that are declared other than by an import. -/
  values : List (String × Nat)
  types : List (String × Nat)

namespace Declarations

def valueKeys : Node → List (String × Nat)
  | .importDecl .. | .typeDecl .. => []
  | .exportDecl _ d | .exportDefaultDecl _ d => valueKeys d
  | n => (n.lexicalIdents ++ n.hoistedIdents).map Ident.key

def typeKeys : Node → List (String × Nat)
  | .typeDecl _ name => name.toList.map Ident.key
  | .exportDecl _ d | .exportDefaultDecl _ d => typeKeys d
  | .importDecl _ typeOnly specifiers .. => specifiers.filterMap fun
    | .importNamed _ id _ isType => if typeOnly || isType then some id.key else none
    | s => if typeOnly then s.importedIdent?.map Ident.key else none
  | _ => []

def ofItems (items : List Node) : Declarations where
  used := items.flatMap Node.usedKeys
  values := items.flatMap valueKeys
  types := items.flatMap typeKeys

def isOnlyType (d : Declarations) (id : Ident) : Bool :=
  d.types.contains id.key && !d.values.contains id.key

/-- Is this specifier of an import needed when the program runs? -/
def keepsImport (d : Declarations) : Node → Bool
  | .importNamed _ _ _ true => false
  | s => match s.importedIdent? with
    | some id => !d.values.contains id.key && d.used.contains id.key
    | none => true

def keepsExport (d : Declarations) : Node → Bool
  | .exportSpecifier _ (.ident id) _ isType => !isType && !d.isOnlyType id
  | .exportSpecifier _ _ _ isType => !isType
  | _ => true

/-- An item without what only describes, if anything is left of it. -/
def eraseItem? (d : Declarations) : Node → Option Node
  | .importDecl _ true .. => none
  | .importDecl s false [] source facts => some (.importDecl s false [] source facts)
  | .importDecl s false specifiers source facts =>
    match specifiers.filter d.keepsImport with
    | [] => none
    | kept => some (.importDecl s false kept source facts)
  | .exportNamed _ true .. => none
  | .exportNamed s false [] source facts => some (.exportNamed s false [] source facts)
  | .exportNamed s false specifiers source facts =>
    match specifiers.filter d.keepsExport with
    | [] => none
    | kept => some (.exportNamed s false kept source facts)
  | .exportAll _ true .. => none
  | .exportDefault s (.ident id) => if d.isOnlyType id then none else some (.exportDefault s (.ident id))
  | n => if n.isRuntime then some (n.rebuild Node.eraseHere) else none

end Declarations

/-- A module that imported or exported something still is a module after its types are gone. -/
def restoreModule (before after : List Node) : List Node :=
  match before.reverse.find? Node.isModuleItem with
  | some last =>
    if after.any Node.isModuleItem then after
    else after ++ [.exportNamed last.span false [] none none]
  | none => after

/-- What a module does when it runs.  Types are gone; an import stays only if it is made for its effect or if
one of its variables is used as a value. -/
def Module.erase (m : Module) : Module :=
  let d := Declarations.ofItems m.body
  { m with body := restoreModule m.body (m.body.filterMap d.eraseItem?) }

end PreviewCompiler.Script
