import PreviewCompiler.Style.Rule

namespace PreviewCompiler.Style

structure Layout where
  minify : Bool
  /-- Without nested rules and operators in media queries. -/
  forOldBrowsers : Bool
  depth : Nat := 0
  /-- The selectors of the rule around, where it has been left. -/
  parents : Option (List Selector.Parent) := none

namespace Layout

def newline (l : Layout) : String := if l.minify then "" else "\n".pushn ' ' (2 * l.depth)

def blank (l : Layout) : String := if l.minify then "" else " "

def deeper (l : Layout) : Layout := { l with depth := l.depth + 1 }

def media (l : Layout) : Media.Format := ⟨l.minify,l.forOldBrowsers⟩

/-- How selectors are written here: without nested rules there is no parent sign. -/
def selectors (l : Layout) : Selector.Format :=
  { minify := l.minify
    parents := if l.forOldBrowsers then some (l.parents.getD []) else none }

end Layout

namespace Rule

/-- Declarations on lines of their own; `isLast` tells whether nothing follows in the rule. -/
def declarationsText (l : Layout) (isLast : Bool) (ds : List Declaration) : String :=
  let lines := ds.flatMap (Declaration.lines l.minify)
  let text := String.join (lines.map (l.newline ++ · ++ ";"))
  if l.minify && isLast then (text.dropEnd (if lines.isEmpty then 0 else 1)).toString else text

def blockText (l : Layout) (head body : String) : String :=
  head ++ l.blank ++ "\x7b" ++ body ++ l.newline ++ "\x7d"

def isImport : Rule → Bool
  | .importing .. => true
  | _ => false

def isDeclarations : Rule → Bool
  | .declarations _ => true
  | _ => false

def gapText (l : Layout) (first second : Rule) : String :=
  if l.minify then (if isDeclarations first && !l.forOldBrowsers then ";" else "")
  else (if isImport first && isImport second then "" else "\n") ++ l.newline

/-- A rule that is neither one of selectors nor one of media. -/
def plainText (l : Layout) : Rule → String
  | .importing address queries =>
    "@import " ++ Value.stringText address
      ++ (if queries.isEmpty then "" else " " ++ Media.listText l.media queries) ++ ";"
  | .other name head body =>
    let front := "@" ++ Value.identText name ++ (if head.isEmpty then "" else " " ++ Value.text l.minify head)
    match body with
    | none => front ++ ";"
    | some vs => blockText l front (l.deeper.newline ++ Value.text l.minify vs)
  | _ => ""

mutual

def text (l : Layout) : Rule → String
  | .style selectors ds rules =>
    let head := Selector.listText l.selectors selectors
    if l.forOldBrowsers then
      let own := if ds.isEmpty && !rules.isEmpty then ""
        else blockText l head (declarationsText l.deeper true ds)
      let gap := if own.isEmpty || rules.isEmpty || l.minify then "" else "\n" ++ l.newline
      let inner := { l with parents := some (selectors.map (Selector.toParent l.selectors)) }
      own ++ gap ++ allText inner rules
    else
      blockText l head (declarationsText l.deeper rules.isEmpty ds
        ++ (if rules.isEmpty then "" else l.deeper.newline ++ allText l.deeper rules))
  | .declarations ds =>
    if l.forOldBrowsers then
      match l.parents with
      | some ps =>
        blockText l ((if l.minify then "," else ", ").intercalate (ps.map (·.text)))
          (declarationsText l.deeper true ds)
      | none => declarationsText l true ds
    else declarationsText l true ds
  | .media queries rules =>
    if l.minify && queries.all Media.alwaysMatches then allText l rules
    else
      blockText l ("@media " ++ Media.listText l.media queries)
        (l.deeper.newline ++ allText l.deeper rules)
  | r => plainText l r

def allText (l : Layout) : List Rule → String
  | [] => ""
  | [r] => text l r
  | r :: r' :: rules => text l r ++ gapText l r r' ++ allText l (r' :: rules)

end

end Rule

/-- The comments at the beginning that ask to be kept. -/
def keptComments : List Located → List String
  | [] => []
  | t :: ts =>
    match t.token with
    | .comment s => if s.startsWith "!" then s :: keptComments ts else keptComments ts
    | .blank _ => keptComments ts
    | _ => []

/-- A stylesheet with as little as needed for the same effect. -/
def process (minify forOldBrowsers : Bool) (css : String) : Except Fault String := do
  let tokens := tokenize css
  let rules := Rule.simplifyAll forOldBrowsers [] (← Rule.parse tokens)
  let comments := String.join ((keptComments tokens).map fun c => "/*" ++ c ++ "*/\n")
  return comments ++ Rule.allText { minify, forOldBrowsers } rules ++ (if minify then "" else "\n")

end PreviewCompiler.Style
