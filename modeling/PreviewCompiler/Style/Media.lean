import PreviewCompiler.Style.Input
import PreviewCompiler.Style.Property

namespace PreviewCompiler.Style

inductive Feature where
  | boolean (name : String)
  | plain (name : String) (value : List Value)
  | range (name operator : String) (value : List Value)
  | interval (low : List Value) (lowOperator name highOperator : String) (high : List Value)
  deriving Repr

inductive Condition where
  | feature (f : Feature)
  | not (c : Condition)
  | all (cs : List Condition)
  | some (cs : List Condition)
  deriving Repr

structure MediaQuery where
  /-- `only` or `not`. -/
  qualifier : Option String := none
  medium : String := "all"
  condition : Option Condition := none
  deriving Repr

namespace Media

/-- A name with a bound in it: what is bounded, and how. -/
def bounded? (name : String) : Option (String × String) :=
  if name.startsWith "min-" then some ((name.drop 4).toString,">=")
  else if name.startsWith "max-" then some ((name.drop 4).toString,"<=")
  else none

/-- The values with lengths of nothing written without unit. -/
def valueOf (ps : List Piece) : List Value := (Value.ofPieces ps).map PropertyValue.recognise

def isOperator (p : Piece) : Bool :=
  match p.head with
  | .delim c => c == '<' || c == '>' || c == '='
  | _ => false

def cutOperator? (ps : List Piece) : Option (List Piece × String × List Piece) :=
  let front := ps.takeWhile (!isOperator ·)
  match ps.drop front.length with
  | .token (.delim c) _ _ :: .token (.delim '=') _ _ :: rest => some (front,c.toString ++ "=",rest)
  | .token (.delim c) _ _ :: rest => some (front,c.toString,rest)
  | _ => none

def nameOf? (ps : List Piece) : Option String :=
  match ps.filter (!·.isBlank) with
  | [.token (.ident s) _ _] => some (lowercase s)
  | _ => none

def mirror (operator : String) : String :=
  if operator.startsWith "<" then ">" ++ (operator.drop 1).toString
  else if operator.startsWith ">" then "<" ++ (operator.drop 1).toString
  else operator

def feature? (ps : List Piece) : Option Feature :=
  match cutOperator? ps with
  | some (front,operator,back) =>
    match cutOperator? back with
    | some (middle,operator',back) =>
      (nameOf? middle).map fun n => .interval (valueOf front) operator n operator' (valueOf back)
    | none =>
      match nameOf? front with
      | some n => some (.range n operator (valueOf back))
      | none => (nameOf? back).map fun n => .range n (mirror operator) (valueOf front)
  | none =>
    let front := ps.takeWhile (·.head != .colon)
    match ps.drop (front.length + 1), nameOf? front with
    | back, some n =>
      if front.length = ps.length then some (.boolean n)
      else
        match bounded? n with
        | some (n,operator) => some (.range n operator (valueOf back))
        | none => some (.plain n (valueOf back))
    | _, none => none

def isIdent (name : String) (p : Piece) : Bool :=
  match p.head with
  | .ident s => lowercase s == name
  | _ => false

/-- The pieces between words; `fuel` bounds how many. -/
def splitWords (word : String) : (fuel : Nat) → List Piece → List (List Piece)
  | 0, ps => [ps]
  | fuel + 1, ps =>
    let front := ps.takeWhile (!isIdent word ·)
    if front.length < ps.length then front :: splitWords word fuel (ps.drop (front.length + 1)) else [ps]

/-- A condition without blanks; `depth` bounds how deep it may be nested. -/
def condition? : (depth : Nat) → List Piece → Option Condition
  | 0, _ => none
  | depth + 1, ps =>
    let operand (ps : List Piece) : Option Condition := match ps with
      | [.block (.opening .round) inner _ _ _ _] =>
        ((feature? inner).map Condition.feature) <|> condition? depth (inner.filter (!·.isBlank))
      | _ => none
    match ps with
    | p :: rest =>
      if isIdent "not" p then (operand rest).map .not
      else
        match splitWords "and" ps.length ps, splitWords "or" ps.length ps with
        | [one], [_] => operand one
        | ands, [_] => (ands.mapM operand).map .all
        | [_], ors => (ors.mapM operand).map .some
        | _, _ => none
    | [] => none

def depthLimit : Nat := 64

def query? (ps : List Piece) : Option MediaQuery :=
  match ps with
  | .token (.ident word) _ _ :: rest =>
    let word := lowercase word
    if word = "not" && !(rest.head?.any fun p => p.isBlank == false && isName p) then
      (condition? depthLimit ps).map fun c => { condition := some c }
    else if word = "only" || word = "not" then
      match rest with
      | .token (.ident medium) _ _ :: rest => (tail? rest).map fun c =>
        { qualifier := some word, medium := lowercase medium, condition := c }
      | _ => none
    else (tail? rest).map fun c => { medium := word, condition := c }
  | ps => (condition? depthLimit ps).map fun c => { condition := some c }
where
  isName (p : Piece) : Bool :=
    match p.head with
    | .ident _ => true
    | _ => false
  tail? : List Piece → Option (Option Condition)
    | [] => some none
    | p :: rest => if isIdent "and" p then (condition? depthLimit rest).map some else none

/-- The queries between commas; none if there is nothing. -/
def list (i : Input) : Except Fault (List MediaQuery) :=
  if i.rest.all Piece.isBlank then return []
  else
    (i.splitCommas i.rest.length).mapM fun part =>
      let ps := part.rest.filter (!·.isBlank)
      match query? ps, ps with
      | some q, _ => return q
      | none, p :: _ => throw ⟨.unexpectedToken p.head,p.start⟩
      | none, [] => throw ⟨.endOfInput,part.stop⟩

/-- How queries are written; older browsers know no operators. -/
structure Format where
  minify : Bool
  forOldBrowsers : Bool

def operatorText (st : Format) (operator : String) : String :=
  if st.minify then operator else " " ++ operator ++ " "

def boundText (st : Format) (name operator : String) (value : List Value) : String :=
  let line (edge : String) : String :=
    "(" ++ edge ++ name ++ Value.delimText st.minify false ':' ++ Value.text st.minify value ++ ")"
  match operator with
  | ">=" => line "min-"
  | "<=" => line "max-"
  | ">" => "not " ++ line "max-"
  | "<" => "not " ++ line "min-"
  | _ => line ""

def featureText (st : Format) : Feature → String
  | .boolean name => "(" ++ name ++ ")"
  | .plain name value =>
    "(" ++ name ++ Value.delimText st.minify false ':' ++ Value.text st.minify value ++ ")"
  | .range name operator value =>
    if st.forOldBrowsers then boundText st name operator value
    else "(" ++ name ++ operatorText st operator ++ Value.text st.minify value ++ ")"
  | .interval low operator name operator' high =>
    if st.forOldBrowsers then
      boundText st name (mirror operator) low ++ " and " ++ boundText st name operator' high
    else
      "(" ++ Value.text st.minify low ++ operatorText st operator ++ name ++ operatorText st operator'
        ++ Value.text st.minify high ++ ")"

mutual

def conditionText (st : Format) : Condition → String
  | .feature f => featureText st f
  | .not c => "not " ++ operandText st c
  | .all cs => " and ".intercalate (operandsText st cs)
  | .some cs => " or ".intercalate (operandsText st cs)

/-- A condition inside of another one. -/
def operandText (st : Format) : Condition → String
  | .feature f => featureText st f
  | .not c => "(not " ++ operandText st c ++ ")"
  | .all cs => "(" ++ " and ".intercalate (operandsText st cs) ++ ")"
  | .some cs => "(" ++ " or ".intercalate (operandsText st cs) ++ ")"

def operandsText (st : Format) : List Condition → List String
  | [] => []
  | c :: cs => operandText st c :: operandsText st cs

end

def queryText (st : Format) (q : MediaQuery) : String :=
  let qualifier := match q.qualifier with
    | some s => s ++ " "
    | none => ""
  let isPlain := q.medium = "all" && q.qualifier.isNone
  match q.condition with
  | none => qualifier ++ q.medium
  | some c =>
    if isPlain then conditionText st c
    else
      let text := match c with
        | .some _ => operandText st c
        | c => conditionText st c
      qualifier ++ q.medium ++ " and " ++ text

def listText (st : Format) (qs : List MediaQuery) : String :=
  (if st.minify then "," else ", ").intercalate (qs.map (queryText st))

/-- Does the query hold of every medium? -/
def alwaysMatches (q : MediaQuery) : Bool :=
  q.medium == "all" && q.qualifier.isNone && q.condition.isNone

/-- Does the query hold of none? -/
def neverMatches (q : MediaQuery) : Bool :=
  q.medium == "all" && q.qualifier == some "not" && q.condition.isNone

end Media

end PreviewCompiler.Style
