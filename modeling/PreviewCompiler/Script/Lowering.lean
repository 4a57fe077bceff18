import PreviewCompiler.Script.Binding
import PreviewCompiler.Script.Comment
import PreviewCompiler.Text.Line
import PreviewCompiler.Text.IdentifierClass

/-!
# Markup as calls

An element becomes a call that creates it.  In the automatic runtime the function is imported from the
runtime of a package, the children are a property and the key is an argument of its own; in the classic
runtime the function is named by the author, and the children are further arguments.  Comments in front
of the items of a module can choose the runtime and its names.
-/

namespace PreviewCompiler.Script

inductive MarkupRuntime where
  | classic | automatic
  deriving DecidableEq, Repr

/-- The functions of the automatic runtime that a module needs. -/
structure RuntimeNeeds where
  jsx : Bool := false
  jsxs : Bool := false
  fragment : Bool := false
  createElement : Bool := false

/-- How the elements of a module are created, and what that has needed so far. -/
structure Lowering where
  runtime : MarkupRuntime
  importSource : String
  /-- Creates an element in the classic runtime. -/
  factory : Node
  /-- Stands for a fragment in the classic runtime. -/
  fragment : Node
  needs : RuntimeNeeds := {}
  comments : Comments

/-- The text between two tags: lines are joined by one blank, and blanks around line ends are gone.
The last line keeps the blanks at its end. -/
def markupText (text : String) : String :=
  let lines := Text.lines (text.toList.map fun c => if c = '\t' then ' ' else c)
  let last := lines.length - 1
  let pieces := (lines.zipIdx.map fun (line,i) =>
    let line := if i = 0 then line else line.dropWhile (· = ' ')
    if i = last then line else (line.reverse.dropWhile (· = ' ')).reverse).filter (!·.isEmpty)
  String.intercalate " " (pieces.map String.ofList)

/-- A line end in the value of an attribute stands for a blank, and blanks behind it are dropped. -/
def attributeText : List Char → List Char
  | [] => []
  | c :: rest =>
    if c = '\n' || c = '\r' || c = '\t' then
      ' ' :: attributeText (rest.dropWhile (· = ' '))
    else if c = '\x08' then '\\' :: 'b' :: attributeText rest
    else if c = '\x0c' then '\\' :: 'f' :: attributeText rest
    else if c = '\x0b' then '\\' :: 'v' :: attributeText rest
    else if c = '\x00' then '\\' :: 'x' :: '0' :: '0' :: attributeText rest
    else c :: attributeText rest
termination_by cs => cs.length
decreasing_by
  all_goals simp_wf
  all_goals first
    | omega
    | (have h := (List.dropWhile_suffix (p := fun c => decide (c = ' ')) (l := rest)).length_le; omega)

def stringNode (span : Span) (text : String) : Node := .literal span (.string text none)

/-- The key of a property; a name with a dash has to be quoted. -/
def propertyKeyOf : Node → Node
  | .keyName span name => if name.toList.contains '-' then stringNode span name else .keyName span name
  | .tagNamespaced span space name => stringNode span (space ++ ":" ++ name)
  | n => n

/-- The value of an attribute; without one the attribute is true. -/
def attributeValue (key : Span) : Option Node → Node
  | none => .literal key (.bool true)
  | some (.literal span (.string value _)) =>
    stringNode span (String.ofList (attributeText value.toList))
  | some (.container _ (some value)) => value
  | some value => value

def tagValue : Node → Node
  | .keyName span name => stringNode span name
  | .tagNamespaced span space name => stringNode span (space ++ ":" ++ name)
  | n => n

def childValue? : Node → Option Node
  | .tagText span text =>
    let text := markupText text
    if text.isEmpty then none else some (stringNode span text)
  | .container _ value => value
  | .spreadChild span value => some (.spread span value)
  | n => some n

/-- Are the children handed over as a list even if there is only one? -/
def startsWithSpread : List Node → Bool
  | .spreadChild .. :: _ => true
  | _ => false

def isSpreadNode : Node → Bool
  | .spread .. => true
  | _ => false

/-- Does a key stand behind properties that are spread? -/
def keyBehindSpread (attributes : List Node) : Bool :=
  (attributes.dropWhile (!isSpreadNode ·)).any isKey
where
  isKey : Node → Bool
    | .tagAttribute _ (.keyName _ name) _ => name == "key"
    | _ => false

def attributeProperties : Node → List Node
  | .tagAttribute _ name value => [.property (propertyKeyOf name) (attributeValue name.span value)]
  | .spread _ (.object _ properties) => properties
  | n => [n]

def isKeyAttribute : Node → Bool
  | .tagAttribute _ (.keyName _ name) _ => name == "key"
  | _ => false

def keyValue? (attributes : List Node) : Option Node :=
  (attributes.reverse.find? isKeyAttribute).bind fun
    | .tagAttribute _ name (some value) => some (attributeValue name.span (some value))
    | _ => none

namespace Lowering

def runtimeIdent (name : String) : Node := .ident ⟨name,Span.synthetic,Scope.generated⟩

def need (change : RuntimeNeeds → RuntimeNeeds) : StateM Lowering Unit :=
  modify fun l => { l with needs := change l.needs }

def markPure (span : Span) : StateM Lowering Unit :=
  modify fun l => { l with comments := l.comments.addPure span.lo }

/-- The function that creates an element whose children are a property. -/
def creator (several : Bool) : StateM Lowering Node := do
  if several then
    need fun n => { n with jsxs := true }
    return runtimeIdent "_jsxs"
  else
    need fun n => { n with jsx := true }
    return runtimeIdent "_jsx"

def childrenProperty (several : Bool) (children : List Node) : List Node :=
  let key := Node.keyName Span.synthetic "children"
  match children, several with
  | [], _ => []
  | [child], false => [.property key child]
  | children, _ => [.property key (.array Span.synthetic children)]

def isSeveral (children : List Node) : Bool :=
  (children.filterMap childValue?).length > 1 || startsWithSpread children

def classicProperties : List Node → Node
  | [] => .literal Span.synthetic .null
  | [.spread _ value] => value
  | attributes => .object Span.synthetic (attributes.flatMap attributeProperties)

def element (span : Span) (name : Node) (attributes children : List Node) :
    StateM Lowering Node := do
  markPure span
  let l ← get
  let values := children.filterMap childValue?
  match l.runtime with
  | .classic =>
    return .call span l.factory (tagValue name :: classicProperties attributes :: values)
  | .automatic =>
    if keyBehindSpread attributes then
      need fun n => { n with createElement := true }
      let properties := Node.object Span.synthetic (attributes.flatMap attributeProperties)
      return .call span (runtimeIdent "_createElement") (tagValue name :: properties :: values)
    else
      let several := isSeveral children
      let create ← creator several
      let properties := (attributes.filter (!isKeyAttribute ·)).flatMap attributeProperties
      let properties := properties ++ childrenProperty several values
      return .call span create
        (tagValue name :: .object Span.synthetic properties :: (keyValue? attributes).toList)

def fragmentCall (span : Span) (children : List Node) : StateM Lowering Node := do
  markPure span
  let l ← get
  let values := children.filterMap childValue?
  match l.runtime with
  | .classic =>
    return .call span l.factory (l.fragment :: .literal Span.synthetic .null :: values)
  | .automatic =>
    let several := isSeveral children
    let create ← creator several
    need fun n => { n with fragment := true }
    return .call span create
      [runtimeIdent "_Fragment",.object Span.synthetic (childrenProperty several values)]

/-- Replace the markup below a node.  Parentheses around an element are dropped with it. -/
def lower (n : Node) : StateM Lowering Node := do
  match n with
  | .paren _ (.element s name attributes children) => lower (.element s name attributes children)
  | .paren _ (.fragment s children) => lower (.fragment s children)
  | n =>
    match ← n.traverse fun part _ => lower part with
    | .element span name attributes children => element span name attributes children
    | .fragment span children => fragmentCall span children
    | n => return n
termination_by sizeOf n

def isPragmaName (name : List Char) : Bool :=
  match name with
  | c :: _ =>
    Text.isIdentifierStart c && name.all fun c => Text.isIdentifierPart c || c == '.'
  | [] => false

/-- The value that a name with dots stands for, its first part being a variable of the module. -/
def pragmaValue (name : String) : Node :=
  match name.splitOn "." with
  | first :: others =>
    others.foldl (fun object part => .member Span.synthetic object (.keyName Span.synthetic part))
      (.ident ⟨first,Span.synthetic,Scope.module⟩)
  | [] => .ident ⟨name,Span.synthetic,Scope.module⟩

def applyWords (l : Lowering) : List (List Char) → Lowering × Bool
  | word :: value :: rest =>
    let (l,here) := match String.ofList word, String.ofList value with
      | "@jsxRuntime", "classic" => ({ l with runtime := .classic },true)
      | "@jsxRuntime", "automatic" => ({ l with runtime := .automatic },true)
      | "@jsxImportSource", source => ({ l with runtime := .automatic, importSource := source },true)
      | "@jsx", name =>
        if isPragmaName value then ({ l with factory := pragmaValue name },true) else (l,false)
      | "@jsxFrag", name =>
        if isPragmaName value then ({ l with fragment := pragmaValue name },true) else (l,false)
      | _, _ => (l,false)
    let (l,below) := applyWords l rest
    (l,here || below)
  | _ => (l,false)

/-- The words of a line of a comment that makes choices. -/
def pragmaWords (line : List Char) : List (List Char) :=
  let line := Text.trim line
  let line := match line with
    | '*' :: rest => Text.trim rest
    | line => line
  if "@jsx".toList.isPrefixOf line then Text.words line else []

/-- Apply the choices of comments; the second part tells whether there were any. -/
def applyComments (l : Lowering) (comments : List Comment) : Lowering × Bool :=
  let lines := (comments.filter (·.isBlock)).flatMap fun c => Text.lines c.text.toList
  lines.foldl
    (fun (l,found) line =>
      let (l,here) := l.applyWords (pragmaWords line)
      (l,found || here))
    (l,false)

/-- Apply the choices in front of the first of some offsets that has any. -/
def applyFirst (l : Lowering) : List Nat → Lowering
  | [] => l
  | offset :: rest =>
    match l.applyComments (l.comments.leadingAt offset) with
    | (l,true) => l
    | (l,false) => applyFirst l rest

def ofModule (runtime : MarkupRuntime) (importSource : String) (comments : Comments) (m : Module) :
    Lowering :=
  let l : Lowering :=
    { runtime, importSource, comments
      factory := pragmaValue "React.createElement"
      fragment := pragmaValue "React.Fragment" }
  let (l,_) := l.applyComments (comments.leadingAt m.span.lo)
  l.applyFirst (m.body.map (·.span.lo))

def runtimeImport (source : String) (names : List (String × String)) : Node :=
  .importDecl Span.synthetic false
    (names.map fun (imported,name) =>
      .importNamed Span.synthetic ⟨name,Span.synthetic,Scope.generated⟩
        (some (.keyName Span.synthetic imported)) false)
    (stringNode Span.synthetic source) none

/-- The imports that the calls need, in the order in which they stand in front of the module. -/
def runtimeImports (l : Lowering) : List Node :=
  let names := (if l.needs.jsx then [("jsx","_jsx")] else [])
    ++ (if l.needs.jsxs then [("jsxs","_jsxs")] else [])
    ++ (if l.needs.fragment then [("Fragment","_Fragment")] else [])
  (if names.isEmpty then [] else [runtimeImport (l.importSource ++ "/jsx-runtime") names])
    ++ (if l.needs.createElement then
      [runtimeImport l.importSource [("createElement","_createElement")]] else [])

/-- Is a statement a string that only tells how to read the module? -/
def isDirective : Node → Bool
  | .exprStatement _ (.literal _ (.string ..)) => true
  | _ => false

end Lowering

/-- Functions of a package whose calls only create something. -/
def pureFunctions : String → List String
  | "react" =>
    ["cloneElement","createContext","createElement","createFactory","createRef","forwardRef",
     "isValidElement","memo","lazy"]
  | "react-dom" => ["createPortal"]
  | _ => []

/-- What a variable holds of a package: all of it, or the export of that name. -/
structure PackageBinding where
  key : String × Nat
  package : String
  /-- `none` if the variable holds the package itself. -/
  export? : Option String

def importedName : Node → String
  | .keyName _ name => name
  | .literal _ (.string value _) => value
  | _ => ""

/-- The variables of a module that hold parts of packages with calls that only create something. -/
def packageBindings : Node → List PackageBinding
  | .importDecl _ _ specifiers (.literal _ (.string package _)) _ =>
    if (pureFunctions package).isEmpty then []
    else specifiers.filterMap fun
      | .importDefault _ id | .importNamespace _ id => some ⟨id.key,package,none⟩
      | .importNamed _ id imported _ =>
        let name := (imported.map importedName).getD id.name
        some ⟨id.key,package,if name == "default" then none else some name⟩
      | _ => none
  | _ => []

def isPureCallee (bindings : List PackageBinding) : Node → Bool
  | .ident id => bindings.any fun b =>
    b.key == id.key && b.export?.any (pureFunctions b.package).contains
  | .member _ (.ident id) (.keyName _ name) => bindings.any fun b =>
    b.key == id.key && b.export?.isNone && (pureFunctions b.package).contains name
  | _ => false

def markPureCalls (bindings : List PackageBinding) (n : Node) : StateM Comments Node := do
  match n with
  | .call span callee _ =>
    if isPureCallee bindings callee then modify fun (cs : Comments) => cs.addPure span.lo
  | _ => pure ()
  n.traverse fun part _ => markPureCalls bindings part
termination_by sizeOf n

/-- The module without markup, and its comments with the marks of calls without effect. -/
def Module.lowerMarkup (m : Module) (runtime : MarkupRuntime) (importSource : String)
    (comments : Comments) : Module × Comments :=
  let (body,l) := (m.body.mapM Lowering.lower).run (Lowering.ofModule runtime importSource comments m)
  let directives := body.takeWhile Lowering.isDirective
  let body := directives ++ l.runtimeImports ++ body.drop directives.length
  let bindings := body.flatMap packageBindings
  let comments :=
    if bindings.isEmpty then l.comments
    else ((body.mapM (markPureCalls bindings)).run l.comments).2
  ({ m with body },comments)

end PreviewCompiler.Script
