import PreviewCompiler.Style.Token

namespace PreviewCompiler.Style

def isNewline (c : Char) : Bool := c == '\n' || c == '\r' || c == '\x0c'

def isSpace (c : Char) : Bool := isNewline c || c == ' ' || c == '\t'

def isHexDigit (c : Char) : Bool := c.isDigit || ('a' ≤ c && c ≤ 'f') || ('A' ≤ c && c ≤ 'F')

def isNameStart (c : Char) : Bool := c.isAlpha || c == '_' || 0x80 ≤ c.toNat

def isNameChar (c : Char) : Bool := isNameStart c || c.isDigit || c == '-'

def hexValue (cs : List Char) : Nat :=
  cs.foldl
    (fun n c =>
      n * 16 + (if c.isDigit then c.toNat - 48 else c.toLower.toNat - 87))
    0

def Place.step (p : Place) (c : Char) (next : Option Char) : Place :=
  if c = '\r' ∧ next = some '\n' then p
  else if isNewline c then ⟨p.line + 1,1⟩
  else ⟨p.line,p.column + (if 0x10000 ≤ c.toNat then 2 else 1)⟩

def Place.advance (p : Place) : (n : Nat) → List Char → Place
  | n + 1, c :: cs => (p.step c cs.head?).advance n cs
  | _, _ => p

/-- Does a backslash in front of this begin an escape? -/
def beginsEscape : List Char → Bool
  | '\\' :: c :: _ => !isNewline c
  | ['\\'] => true
  | _ => false

def beginsName : List Char → Bool
  | '-' :: '-' :: _ => true
  | '-' :: cs => cs.head?.any isNameStart || beginsEscape cs
  | cs => cs.head?.any isNameStart || beginsEscape cs

def escape (cs : List Char) : Char × List Char :=
  let digits := (cs.take 6).takeWhile isHexDigit
  if digits.isEmpty then
    match cs with
    | c :: rest => (c,rest)
    | [] => ('\ufffd',[])
  else
    let rest := cs.drop digits.length
    let rest := match rest with
      | '\r' :: '\n' :: rest => rest
      | c :: rest' => if isSpace c then rest' else rest
      | [] => []
    let n := hexValue digits
    (if n = 0 ∨ !n.isValidChar then '\ufffd' else Char.ofNat n,rest)

/-- The characters of a name and what follows; `fuel` bounds how many. -/
def nameChars : (fuel : Nat) → List Char → List Char × List Char
  | 0, cs => ([],cs)
  | fuel + 1, cs =>
    if beginsEscape cs then
      let (c,rest) := escape (cs.drop 1)
      let (name,rest) := nameChars fuel rest
      (c :: name,rest)
    else
      match cs with
      | c :: rest =>
        if isNameChar c then
          let (name,rest) := nameChars fuel rest
          (c :: name,rest)
        else ([],cs)
      | [] => ([],[])

def name (cs : List Char) : String × List Char :=
  let (name,rest) := nameChars cs.length cs
  (String.ofList name,rest)

def beginsNumber : List Char → Bool
  | '+' :: cs | '-' :: cs => digitsOrPoint cs
  | cs => digitsOrPoint cs
where
  digitsOrPoint : List Char → Bool
    | '.' :: c :: _ => c.isDigit
    | c :: _ => c.isDigit
    | [] => false

def decimalValue (cs : List Char) : Nat := cs.foldl (fun n c => n * 10 + (c.toNat - 48)) 0

def numeral (cs : List Char) : Numeral × List Char :=
  let isSigned := cs.head? == some '+' || cs.head? == some '-'
  let isNegative := cs.head? == some '-'
  let cs := if isSigned then cs.drop 1 else cs
  let whole := cs.takeWhile Char.isDigit
  let cs := cs.drop whole.length
  let fraction := match cs with
    | '.' :: rest => rest.takeWhile Char.isDigit
    | _ => []
  let cs := if fraction.isEmpty then cs else cs.drop (fraction.length + 1)
  let (power,rest) : Option Int × List Char := match cs with
    | e :: rest =>
      if e == 'e' || e == 'E' then
        let sign := rest.head?.filter fun c => c == '+' || c == '-'
        let rest := if sign.isSome then rest.drop 1 else rest
        let digits := rest.takeWhile Char.isDigit
        if digits.isEmpty then (none,cs)
        else
          let n : Int := decimalValue digits
          (some (if sign == some '-' then -n else n),rest.drop digits.length)
      else (none,cs)
    | [] => (none,[])
  ({ isSigned, isNegative
     isInteger := fraction.isEmpty && power.isNone
     digits := ⟨decimalValue (whole ++ fraction),power.getD 0 - fraction.length⟩ },rest)

/-- A string behind its quote; `fuel` bounds its length. -/
def stringChars (quote : Char) : (fuel : Nat) → List Char → List Char × Bool × List Char
  | 0, cs => ([],true,cs)
  | fuel + 1, cs =>
    match cs with
    | [] => ([],true,[])
    | '\\' :: rest =>
      match rest with
      | [] => ([],true,[])
      | '\r' :: '\n' :: rest => stringChars quote fuel rest
      | c :: rest' =>
        if isNewline c then stringChars quote fuel rest'
        else
          let (c,rest) := escape rest
          let (s,ok,rest) := stringChars quote fuel rest
          (c :: s,ok,rest)
    | c :: rest =>
      if c = quote then ([],true,rest)
      else if isNewline c then ([],false,cs)
      else
        let (s,ok,rest) := stringChars quote fuel rest
        (c :: s,ok,rest)

/-- An address without quotes behind its bracket; `fuel` bounds its length. -/
def urlChars : (fuel : Nat) → List Char → List Char × Bool × List Char
  | 0, cs => ([],true,cs)
  | fuel + 1, cs =>
    match cs with
    | [] => ([],true,[])
    | ')' :: rest => ([],true,rest)
    | c :: rest =>
      if isSpace c then
        match rest.dropWhile isSpace with
        | [] => ([],true,[])
        | ')' :: rest => ([],true,rest)
        | rest => ([],false,rest)
      else if c == '"' || c == '\'' || c == '(' then ([],false,rest)
      else if beginsEscape cs then
        let (c,rest) := escape rest
        let (s,ok,rest) := urlChars fuel rest
        (c :: s,ok,rest)
      else
        let (s,ok,rest) := urlChars fuel rest
        (c :: s,ok,rest)

def isUrlName (s : String) : Bool := s.toList.map Char.toLower == ['u','r','l']

def nameToken (cs : List Char) : Token × List Char :=
  let (s,rest) := name cs
  match rest with
  | '(' :: inside =>
    let content := inside.dropWhile isSpace
    if isUrlName s && !(content.head? == some '"' || content.head? == some '\'') then
      let (u,ok,rest) := urlChars content.length content
      if ok then (.url (String.ofList u),rest)
      else (.badUrl (String.ofList u),(rest.dropWhile (· != ')')).drop 1)
    else (.function s,inside)
  | _ => (.ident s,rest)

def numberToken (cs : List Char) : Token × List Char :=
  let (n,rest) := numeral cs
  match rest with
  | '%' :: rest => (.percentage n,rest)
  | _ =>
    if beginsName rest then
      let (unit,rest) := name rest
      (.dimension n unit,rest)
    else (.number n,rest)

def commentChars : List Char → List Char × List Char
  | '*' :: '/' :: rest => ([],rest)
  | c :: rest =>
    let (s,rest) := commentChars rest
    (c :: s,rest)
  | [] => ([],[])

/-- The first token of a text that is not empty, and what follows. -/
def nextToken (c : Char) (rest : List Char) : Token × List Char :=
  let cs := c :: rest
  if isSpace c then
    let blank := cs.takeWhile isSpace
    (.blank (String.ofList blank),cs.drop blank.length)
  else if beginsNumber cs then numberToken cs
  else if beginsName cs && !(cs.take 3 == ['-','-','>']) then nameToken cs
  else
    match c, rest with
    | '"', rest | '\'', rest =>
      let (s,ok,rest) := stringChars c rest.length rest
      (if ok then .string (String.ofList s) else .badString (String.ofList s),rest)
    | '#', rest =>
      if rest.head?.any isNameChar || beginsEscape rest then
        let (s,after) := name rest
        (if beginsName rest then .idHash s else .hash s,after)
      else (.delim '#',rest)
    | '@', rest =>
      if beginsName rest then
        let (s,after) := name rest
        (.atKeyword s,after)
      else (.delim '@',rest)
    | '/', '*' :: rest =>
      let (s,rest) := commentChars rest
      (.comment (String.ofList s),rest)
    | '<', '!' :: '-' :: '-' :: rest => (.commentOpen,rest)
    | '-', '-' :: '>' :: rest => (.commentClose,rest)
    | '~', '=' :: rest => (.includeMatch,rest)
    | '|', '=' :: rest => (.dashMatch,rest)
    | '^', '=' :: rest => (.frontMatch,rest)
    | '$', '=' :: rest => (.endMatch,rest)
    | '*', '=' :: rest => (.substringMatch,rest)
    | ':', rest => (.colon,rest)
    | ';', rest => (.semicolon,rest)
    | ',', rest => (.comma,rest)
    | '(', rest => (.opening .round,rest)
    | '[', rest => (.opening .square,rest)
    | '\x7b', rest => (.opening .curly,rest)
    | ')', rest => (.closing .round,rest)
    | ']', rest => (.closing .square,rest)
    | '\x7d', rest => (.closing .curly,rest)
    | c, rest => (.delim c,rest)

structure Located where
  token : Token
  start : Place
  stop : Place

/-- The tokens of a text that begins at a place; `fuel` bounds how many. -/
def tokensFrom : (fuel : Nat) → Place → List Char → List Located
  | 0, _, _ => []
  | _, _, [] => []
  | fuel + 1, p, c :: rest =>
    let (t,after) := nextToken c rest
    let stop := p.advance (rest.length + 1 - after.length) (c :: rest)
    ⟨t,p,stop⟩ :: tokensFrom fuel stop after

/-- The text as the rules of the format want it. -/
def clean (text : String) : List Char := text.toList.map fun c => if c = '\x00' then '\ufffd' else c

def tokenize (text : String) : List Located :=
  let cs := clean text
  tokensFrom cs.length {} cs

def Token.opens? : Token → Option Bracket
  | .opening b => some b
  | .function _ => some .round
  | _ => none

/-- The pieces up to the end, or to the bracket that closes; also where they end, where the bracket ends, and
the tokens behind it.  `fuel` bounds how many tokens there are. -/
def piecesFrom : (fuel : Nat) → (close : Option Bracket) → (here : Place) → List Located →
    List Piece × Place × Place × List Located
  | 0, _, here, ts => ([],here,here,ts)
  | _, _, here, [] => ([],here,here,[])
  | fuel + 1, close, _, t :: ts =>
    match t.token with
    | .closing b =>
      if close = some b then ([],t.start,t.stop,ts)
      else
        let (ps,last) := piecesFrom fuel close t.stop ts
        (.token t.token t.start t.stop :: ps,last)
    | .comment _ => piecesFrom fuel close t.stop ts
    | token =>
      match token.opens? with
      | some b =>
        let (inner,innerStop,stop,ts) := piecesFrom fuel (some b) t.stop ts
        let (ps,last) := piecesFrom fuel close stop ts
        (.block token inner t.start t.stop innerStop stop :: ps,last)
      | none =>
        let (ps,last) := piecesFrom fuel close t.stop ts
        (.token token t.start t.stop :: ps,last)

def pieces (tokens : List Located) : List Piece × Place :=
  let (ps,stop,_,_) := piecesFrom tokens.length none {} tokens
  (ps,stop)

end PreviewCompiler.Style
