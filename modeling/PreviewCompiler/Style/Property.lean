import PreviewCompiler.Style.Value
import PreviewCompiler.Text.Split

namespace PreviewCompiler.Style

inductive Size where
  | keyword (name : String)
  | length (n : Numeral) (unit : String)
  | percentage (n : Numeral)
  deriving DecidableEq, Repr

inductive Weight where
  | number (n : Numeral)
  | normal
  | bold
  | relative (name : String)
  deriving DecidableEq, Repr

inductive PropertyValue where
  | color (c : Color)
  | size (s : Size)
  /-- The four sides from the top clockwise. -/
  | sides (top right bottom left : Size)
  | weight (w : Weight)
  | keyword (name : String)
  | number (n : Numeral)
  | nothing
  /-- Values that have been read but not understood further. -/
  | values (vs : List Value)
  /-- Values that could not be read. -/
  | unread (vs : List Value)
  deriving Repr

structure Declaration where
  name : String
  value : PropertyValue
  isImportant : Bool := false
  /-- The vendors for which it is written too, in front of the plain name. -/
  vendors : List String := []
  deriving Repr

namespace Size

def units : List String :=
  ["px","em","rem","ex","ch","vw","vh","vmin","vmax","cm","mm","q","in","pt","pc","lh","rlh",
   "cap","ic","rex","rch","rcap","ric","svw","svh","lvw","lvh","dvw","dvh","vi","vb","cqw","cqh",
   "cqi","cqb","cqmin","cqmax"]

def ofToken? (keywords : List String) : Token → Option Size
  | .ident s => if keywords.contains (lowercase s) then some (keyword (lowercase s)) else none
  | .number n => if n.isZero then some (length n "px") else none
  | .percentage n => some (percentage n)
  | .dimension n unit => if units.contains (lowercase unit) then some (length n (lowercase unit)) else none
  | _ => none

/-- A length of nothing needs no unit. -/
def text : Size → String
  | keyword s => s
  | length n unit => if n.isZero then "0" else n.text ++ unit
  | percentage n => n.text ++ "%"

end Size

namespace PropertyValue

/-- How the value of a property is read. -/
inductive Grammar where
  | color
  | size (keywords : List String)
  | sides (keywords : List String)
  | weight
  | keyword
  | number
  | background
  /-- A list in which colors may have names. -/
  | colored
  | fonts
  | any

def colorNames : List String :=
  ["color","background-color","border-top-color","border-right-color","border-bottom-color",
   "border-left-color","outline-color","caret-color","text-decoration-color","column-rule-color",
   "text-emphasis-color"]

def sizeKeywords : List String := ["auto","min-content","max-content","fit-content","stretch","none"]

def sizeNames : List String :=
  ["width","height","min-width","min-height","max-width","max-height","font-size","row-gap",
   "column-gap","gap","letter-spacing","word-spacing","text-indent","flex-basis",
   "border-top-width","border-right-width","border-bottom-width","border-left-width","outline-width",
   "outline-offset","border-radius","border-width"]

def placeNames : List String :=
  ["margin-top","margin-right","margin-bottom","margin-left","top","right","bottom","left"]

def keywordNames : List String :=
  ["display","position","visibility","text-align","float","clear","box-sizing","user-select",
   "appearance","white-space","overflow-x","overflow-y","overflow","flex-direction","flex-wrap",
   "align-items","justify-content","align-content","align-self","cursor","pointer-events",
   "text-transform","font-style","text-decoration","hyphens","border-collapse","border-style",
   "resize","list-style-type"]

def grammar (name : String) : Grammar :=
  if colorNames.contains name then .color
  else if sizeNames.contains name then
    .size (sizeKeywords ++ ["normal","thin","medium","thick","small","large","smaller","larger","x-small",
      "x-large","xx-small","xx-large"])
  else if placeNames.contains name then .size ["auto"]
  else if name = "margin" then .sides ["auto"]
  else if name = "padding" then .sides []
  else if ["padding-top","padding-right","padding-bottom","padding-left"].contains name then .size []
  else if name = "font-weight" then .weight
  else if keywordNames.contains name then .keyword
  else if ["opacity","z-index","flex-grow","flex-shrink","order","line-height"].contains name then .number
  else if name = "background" then .background
  else if name = "font-family" then .fonts
  else if ["border","border-top","border-right","border-bottom","border-left","outline","box-shadow",
      "text-shadow","fill","stroke","border-color"].contains name then .colored
  else .any

def ofSizes? : List Size → Option PropertyValue
  | [a] => some (sides a a a a)
  | [a,b] => some (sides a b a b)
  | [a,b,c] => some (sides a b c b)
  | [a,b,c,d] => some (sides a b c d)
  | _ => none

def weightOf? : Token → Option Weight
  | .number n => some (.number n)
  | .ident s =>
    match lowercase s with
    | "normal" => some .normal
    | "bold" => some .bold
    | "bolder" => some (.relative "bolder")
    | "lighter" => some (.relative "lighter")
    | _ => none
  | _ => none

/-- The values with named colors and lengths recognised. -/
def recognise : Value → Value
  | .token (.ident name) =>
    match Color.ofName? name with
    | some c => .color c
    | none => .token (.ident name)
  | .dimension n unit =>
    if n.isZero && Size.units.contains (lowercase unit) then .token (.number n) else .dimension n unit
  | v => v

/-- A name of a font, without quotes if that is shorter. -/
def recogniseFont : Value → List Value
  | .token (.string s) =>
    let words := (Text.splitAll (· == ' ') s.toList).map String.ofList
    let bare := " ".intercalate (words.map Value.identText)
    if words.all (!·.isEmpty) && bare.utf8ByteSize < s.utf8ByteSize + 2 && !genericFonts.contains s then
      (words.map fun w => Value.token (.ident w)).intersperse (.token (.blank " "))
    else [.token (.string s)]
  | v => [v]
where
  genericFonts : List String :=
    ["serif","sans-serif","cursive","fantasy","monospace","system-ui","inherit","initial","unset",
     "default","revert","math","emoji","ui-serif","ui-sans-serif","ui-monospace","ui-rounded"]

def ofPieces? (g : Grammar) (ps : List Piece) : Option PropertyValue :=
  let solid := ps.filter (!·.isBlank)
  match g, solid with
  | .color, [p] => (Color.ofPiece? p).map color
  | .size keywords, [p] => (Size.ofToken? keywords p.head).map size
  | .sides keywords, ps => (ps.mapM fun p => Size.ofToken? keywords p.head).bind ofSizes?
  | .weight, [p] => (weightOf? p.head).map weight
  | .keyword, [.token (.ident s) _ _] => some (keyword (lowercase s))
  | .number, [.token (.number n) _ _] => some (number n)
  | .number, [.token (.percentage n) _ _] => some (number (n.scale (-2)))
  | .background, [p] =>
    if p.head == .ident "none" || p.head == .ident "transparent" then some nothing
    else ((Color.ofPiece? p).map color) <|> some (values (Value.ofPieces ps))
  | .colored, _ | .background, _ => some (values ((Value.ofPieces ps).map recognise))
  | .fonts, _ => some (values ((Value.ofPieces ps).flatMap recogniseFont))
  | .any, _ => some (values (Value.ofPieces ps))
  | _, _ => none

def ofPieces (name : String) (ps : List Piece) : PropertyValue :=
  let vs := Value.ofPieces ps
  if Value.anyOpen vs then unread vs
  else (ofPieces? (grammar name) ps).getD (unread vs)

/-- The sides, of which equal ones are written once. -/
def sidesText (top right bottom left : Size) : String :=
  if right = left then
    if top = bottom then
      if top = right then top.text else top.text ++ " " ++ right.text
    else top.text ++ " " ++ right.text ++ " " ++ bottom.text
  else top.text ++ " " ++ right.text ++ " " ++ bottom.text ++ " " ++ left.text

def weightText (minify : Bool) : Weight → String
  | .number n => n.text
  | .normal => if minify then "400" else "normal"
  | .bold => if minify then "700" else "bold"
  | .relative s => s

def text (minify : Bool) : PropertyValue → String
  | color c => c.text
  | size s => s.text
  | sides a b c d => sidesText a b c d
  | weight w => weightText minify w
  | keyword s => s
  | number n => n.text
  | nothing => if minify then "0 0" else "none"
  | values vs | unread vs => Value.text minify vs

end PropertyValue

namespace Declaration

def lineText (minify : Bool) (name : String) (d : Declaration) : String :=
  name ++ Value.delimText minify false ':' ++ d.value.text minify
    ++ (if d.isImportant then (if minify then "!important" else " !important") else "")

/-- One line for every vendor and one for the plain name. -/
def lines (minify : Bool) (d : Declaration) : List String :=
  (d.vendors.map (· ++ d.name) ++ [d.name]).map (lineText minify · d)

end Declaration

end PreviewCompiler.Style
