import PreviewCompiler.Style.Property

namespace PreviewCompiler.Style

namespace Arrangement

/-- Kinds of properties in the order in which they are written. -/
def kinds : List (List String) :=
  [["background","background-color","background-image","background-position","background-size",
     "background-repeat","background-attachment","background-origin","background-clip"],
   ["border","border-top","border-right","border-bottom","border-left","border-color","border-width",
     "border-style","border-radius","border-top-color","border-right-color","border-bottom-color",
     "border-left-color","border-top-width","border-right-width","border-bottom-width",
     "border-left-width"],
   ["outline","outline-color","outline-style","outline-width"],
   ["flex","flex-direction","flex-wrap","flex-flow","flex-grow","flex-shrink","flex-basis","order"],
   ["align-content","justify-content","place-content","align-self","justify-self","place-self",
     "align-items","justify-items","place-items","row-gap","column-gap","gap"],
   ["width","height","min-width","min-height","max-width","max-height"],
   ["margin-top","margin-bottom","margin-left","margin-right"],
   ["padding-top","padding-bottom","padding-left","padding-right"],
   ["font","font-family","font-size","font-style","font-weight","font-stretch","line-height"],
   ["text-decoration","text-decoration-line","text-decoration-style","text-decoration-color"],
   ["list-style","list-style-type","list-style-image","list-style-position"],
   ["transition","transition-property","transition-duration","transition-delay"],
   ["animation","animation-name","animation-duration"],
   ["display"],
   ["position"],
   ["top","bottom","left","right"],
   ["overflow","overflow-x","overflow-y"],
   ["transform"],
   ["box-shadow"]]

def kindOf? (name : String) : Option Nat :=
  kinds.findIdx? (·.contains (match name with
    | "margin" => "margin-top"
    | "padding" => "padding-top"
    | name => name))

/-- Properties of which one declaration is enough, in the place of the first. -/
def singleNames : List String :=
  ["color","text-shadow","filter","backdrop-filter","fill","stroke","caret-color","caret",
   "user-select","appearance","hyphens","text-overflow","box-sizing","tab-size"]

/-- Does a later declaration for this property take the place of an earlier one? -/
def isSingle (name : String) : Bool := singleNames.contains name || name.startsWith "--"

structure State where
  placed : List Declaration := []
  held : List Declaration := []

def replace (d : Declaration) : List Declaration → List Declaration
  | [] => [d]
  | e :: es => if e.name = d.name then d :: es else e :: replace d es

/-- The declarations of the four sides in the place of the one for all. -/
def expand (d : Declaration) : List Declaration :=
  match d.value with
  | .sides top right bottom left =>
    [("-top",top),("-right",right),("-bottom",bottom),("-left",left)].map fun (side,s) =>
      { d with name := d.name ++ side, value := .size s }
  | _ => [d]

def sizeOf? (held : List Declaration) (name : String) : Option Size :=
  match held.find? (·.name == name) with
  | some { value := .size s, .. } => some s
  | _ => none

/-- The declaration for all sides of `name`, if each has one. -/
def together? (name : String) (held : List Declaration) : Option Declaration := do
  let top ← sizeOf? held (name ++ "-top")
  let right ← sizeOf? held (name ++ "-right")
  let bottom ← sizeOf? held (name ++ "-bottom")
  let left ← sizeOf? held (name ++ "-left")
  return { name, value := .sides top right bottom left
           isImportant := held.any (·.isImportant) }

/-- Do the declarations of a kind keep the order in which they were made? -/
def keepsOrder (names : List String) : Bool :=
  !(["width","margin-top","padding-top","top"].contains (names.headD ""))

/-- The declarations of a kind as they are written. -/
def ofKind (names : List String) (held : List Declaration) : List Declaration :=
  let mine := held.filter (names.contains ·.name)
  if keepsOrder names then mine
  else
    let whole := ["margin","padding"].filter fun n => names.contains (n ++ "-top")
    match whole.head?.bind (together? · mine) with
    | some d => [d]
    | none => names.filterMap fun n => List.find? (·.name == n) mine

def flush (kind : Nat) (s : State) : State :=
  let names := kinds.getD kind []
  { placed := s.placed ++ ofKind names s.held
    held := s.held.filter (!names.contains ·.name) }

def isUnread (d : Declaration) : Bool :=
  match d.value with
  | .unread _ => true
  | _ => false

/-- Hold a declaration, in the place of an older one for the same property. -/
def hold (held : List Declaration) (d : Declaration) : List Declaration :=
  held.filter (·.name != d.name) ++ [d]

def step (s : State) (d : Declaration) : State :=
  match kindOf? d.name with
  | some kind =>
    if isUnread d then
      let s := flush kind s
      { s with placed := s.placed ++ [d] }
    else { s with held := (expand d).foldl hold s.held }
  | none =>
    if isSingle d.name then { s with placed := replace d s.placed }
    else { s with placed := s.placed ++ [d] }

/-- The declarations of one degree of importance in order. -/
def sort (ds : List Declaration) : List Declaration :=
  ((List.range kinds.length).foldl (fun s kind => flush kind s) (ds.foldl step {})).placed

/-- Vendors that the older browsers need for a property. -/
def vendors (name : String) : List String :=
  match name with
  | "user-select" | "hyphens" | "backdrop-filter" => ["-webkit-"]
  | "appearance" => ["-webkit-","-moz-"]
  | _ => []

end Arrangement

def arrange (forOldBrowsers : Bool) (ds : List Declaration) : List Declaration :=
  let sorted := Arrangement.sort (ds.filter (!·.isImportant)) ++ Arrangement.sort (ds.filter (·.isImportant))
  if forOldBrowsers then sorted.map fun d => { d with vendors := Arrangement.vendors d.name } else sorted

end PreviewCompiler.Style
