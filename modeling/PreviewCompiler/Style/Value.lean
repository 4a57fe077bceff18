import PreviewCompiler.Style.Color

namespace PreviewCompiler.Style

/-- A token of a value in which colors, addresses, functions and variables have been recognised. -/
inductive Value where
  | color (c : Color)
  | url (address : String)
  | dimension (n : Numeral) (unit : String)
  | reference (name : String) (fallback : Option (List Value))
  | function (name : String) (arguments : List Value)
  | token (t : Token)
  deriving Repr

namespace Value

def isBlank : Value → Bool
  | token t => t.isBlank
  | _ => false

/-- What stands in front of the next piece, as far as blanks matter. -/
structure Before where
  /-- No blank is needed. -/
  delimited : Bool := false
  /-- There is a blank, which goes if a sign follows. -/
  blank : Bool := false

def trim (vs : List Value) : List Value :=
  match vs with
  | _ :: _ :: _ =>
    let vs := if vs.head?.any isBlank then vs.drop 1 else vs
    if vs.getLast?.any isBlank then vs.dropLast else vs
  | vs => vs

/-- Put a sign in the place of the blank in front of it. -/
def pushSign (t : Token) (b : Before) (taken : List Value) : List Value :=
  token t :: (if b.blank then taken.drop 1 else taken)

/-- A variable from the arguments of its function. -/
def variableOf (arguments : List Value) : Value :=
  match arguments with
  | [token (.ident name)] => reference name none
  | token (.ident name) :: token .comma :: fallback => reference name (some (trim fallback))
  | arguments => function "var" arguments

mutual

/-- The values with those of one more piece, `taken` being read, the latest one in front. -/
def ofPieceFrom (b : Before) (taken : List Value) : Piece → List Value × Before
  | .token t _ _ =>
    match t with
    | .blank _ | .comment _ =>
      if b.delimited then (taken,b) else (token (.blank " ") :: taken,⟨false,true⟩)
    | .hash s | .idHash s =>
      let v := match Color.ofHex? s with
        | some c => color c
        | none => token (.hash s)
      (v :: taken,{})
    | .url s => (url s :: taken,{})
    | .dimension n unit => (dimension n unit :: taken,{})
    | .delim _ | .comma => (pushSign t b taken,⟨true,false⟩)
    | t => (token t :: taken,{})
  | .block (.function name) inner _ _ _ _ =>
    match Color.ofFunction? name inner with
    | some c => (color c :: taken,{})
    | none =>
      let arguments := trim (ofPiecesFrom {} [] inner).1.reverse
      if lowercase name = "var" then (variableOf arguments :: taken,⟨true,false⟩)
      else if isUrlName name then
        match arguments with
        | [token (.string s)] => (url s :: taken,{})
        | arguments => (function name arguments :: taken,⟨true,false⟩)
      else (function name arguments :: taken,⟨true,false⟩)
  | .block t inner _ _ _ _ =>
    let close : Token := match t with
      | .opening b => .closing b
      | t => t
    let (within,_) := ofPiecesFrom {} (token t :: taken) inner
    (token close :: within,⟨true,false⟩)

/-- The values with those of more pieces. -/
def ofPiecesFrom (b : Before) (taken : List Value) : List Piece → List Value × Before
  | [] => (taken,b)
  | p :: ps =>
    let (taken,b) := ofPieceFrom b taken p
    ofPiecesFrom b taken ps

end

def ofPieces (ps : List Piece) : List Value := trim (ofPiecesFrom {} [] ps).1.reverse

mutual

/-- Does a variable stand in a value, so that it is not known yet what it means? -/
def isOpen : Value → Bool
  | reference .. => true
  | function name arguments => lowercase name = "env" || anyOpen arguments
  | _ => false

def anyOpen : List Value → Bool
  | [] => false
  | v :: vs => isOpen v || anyOpen vs

end

def identText (s : String) : String :=
  match s.toList with
  | '-' :: '-' :: cs => "--" ++ String.join (cs.map part)
  | ['-'] => "\\-"
  | '-' :: c :: cs => "-" ++ first c ++ String.join (cs.map part)
  | c :: cs => first c ++ String.join (cs.map part)
  | [] => ""
where
  hex (c : Char) : String := "\\" ++ String.ofList (Nat.toDigits 16 c.toNat) ++ " "
  part (c : Char) : String :=
    if isNameChar c then c.toString
    else if c < ' ' || c == '\x7f' then hex c
    else "\\" ++ c.toString
  first (c : Char) : String := if c.isDigit then hex c else part c

def stringText (s : String) : String := "\"" ++ String.join (s.toList.map part) ++ "\""
where
  part (c : Char) : String :=
    if c = '"' then "\\\"" else if c = '\\' then "\\\\"
    else if c < ' ' || c == '\x7f' then "\\" ++ String.ofList (Nat.toDigits 16 c.toNat) ++ " "
    else c.toString

/-- Write an address, without quotes if that is shorter and wanted. -/
def urlText (minify : Bool) (s : String) : String :=
  let quoted := "url(" ++ stringText s ++ ")"
  if minify then
    let bare := "url(" ++ String.join (s.toList.map part) ++ ")"
    if bare.utf8ByteSize > s.utf8ByteSize + 7 && quoted.utf8ByteSize < bare.utf8ByteSize then quoted
    else bare
  else quoted
where
  part (c : Char) : String :=
    if c < '!' || c == '\x7f' then "\\" ++ String.ofList (Nat.toDigits 16 c.toNat) ++ " "
    else if c == '(' || c == ')' || c == '"' || c == '\'' || c == '\\' then "\\" ++ c.toString
    else c.toString

/-- Write a number with a unit; a time is written in the shorter one of its two units. -/
def dimensionText (n : Numeral) (unit : String) : String :=
  match lowercase unit with
  | "s" =>
    if !n.isZero && !n.isNegative && n.value.num * 10 < n.value.den then (n.scale 3).text ++ "ms"
    else n.text ++ "s"
  | "ms" =>
    if n.isZero || (!n.isNegative && 100 * n.value.den ≤ n.value.num) then (n.scale (-3)).text ++ "s"
    else n.text ++ "ms"
  | _ => n.text ++ identText unit

def tokenText : Token → String
  | .ident s => identText s
  | .atKeyword s => "@" ++ identText s
  | .hash s | .idHash s => "#" ++ identText s
  | .string s | .badString s => stringText s
  | .url s | .badUrl s => urlText true s
  | .delim c => c.toString
  | .number n => n.text
  | .percentage n => n.text ++ "%"
  | .dimension n unit => dimensionText n unit
  | .blank s => s
  | .comment _ => ""
  | .colon => ":"
  | .semicolon => ";"
  | .comma => ","
  | .includeMatch => "~="
  | .dashMatch => "|="
  | .frontMatch => "^="
  | .endMatch => "$="
  | .substringMatch => "*="
  | .commentOpen => "<!--"
  | .commentClose => "-->"
  | .function s => identText s ++ "("
  | .opening .round => "("
  | .opening .square => "["
  | .opening .curly => "\x7b"
  | .closing .round => ")"
  | .closing .square => "]"
  | .closing .curly => "\x7d"

/-- A sign with blanks around it if they are wanted. -/
def delimText (minify blankBefore : Bool) (c : Char) : String :=
  if minify then c.toString else (if blankBefore then " " else "") ++ c.toString ++ " "

/-- The blank behind a bracket, which was left out in reading. -/
def blankAfter (minify : Bool) (next : Option Value) : String :=
  match next with
  | none | some (token .comma) | some (token (.closing .round)) => ""
  | some _ => if minify then "" else " "

mutual

/-- Write a value and tell whether a blank stands behind; `blank` tells whether one stands in front. -/
def valueText (minify blank : Bool) (next : Option Value) : Value → String × Bool
  | token (.delim c) =>
    if c == '+' || c == '-' then (" " ++ c.toString ++ " ",true)
    else (delimText minify (!blank && (c == '/' || c == '*')) c,true)
  | token .comma => (delimText minify false ',',true)
  | token (.closing b) =>
    let after := blankAfter minify next
    (tokenText (.closing b) ++ after,!after.isEmpty)
  | token t => (tokenText t,t.isBlank)
  | reference name fallback =>
    let after := blankAfter minify next
    (variableText minify name fallback ++ after,!after.isEmpty)
  | function name arguments =>
    let after := blankAfter minify next
    (identText name ++ "(" ++ listText minify false arguments ++ ")" ++ after,!after.isEmpty)
  | color c => (c.text,false)
  | url s => (urlText minify s,false)
  | dimension n unit => (dimensionText n unit,false)

def listText (minify blank : Bool) : List Value → String
  | [] => ""
  | v :: vs =>
    let (text,blank) := valueText minify blank vs.head? v
    text ++ listText minify blank vs

def variableText (minify : Bool) (name : String) : Option (List Value) → String
  | none => "var(" ++ identText name ++ ")"
  | some vs => "var(" ++ identText name ++ delimText minify false ',' ++ listText minify false vs ++ ")"

end

def text (minify : Bool) (vs : List Value) : String := listText minify false vs

end Value

end PreviewCompiler.Style
