import PreviewCompiler.Script.Token
import PreviewCompiler.Script.Comment
import PreviewCompiler.Script.Entity
import PreviewCompiler.Text.Blank
import PreviewCompiler.Text.IdentifierClass

namespace PreviewCompiler.Script

structure Dialect where
  types : Bool
  markup : Bool
  deriving DecidableEq, Repr

/-- What the grammar tells the lexer about the place where it reads. -/
structure LexMode where
  inType : Bool := false
  angleOperators : Bool := false
  inPropertyName : Bool := false

inductive Surroundings where
  | blockBrace
  | valueBrace
  /-- An embedded expression, in a template or between tags. -/
  | embedded
  | statementParen (isLoop : Bool)
  | valueParen
  | template (start : Nat)
  | functionValue
  | classValue
  | openingTag
  | closingTag
  | tagBody
  deriving DecidableEq, Repr

namespace Surroundings

/-- Is what closes here a value, so that no operand follows? -/
def isValue : Surroundings → Bool
  | valueBrace | embedded | valueParen | template _ | functionValue | classValue | tagBody => true
  | _ => false

/-- Are blanks part of the text? -/
def keepsBlanks : Surroundings → Bool
  | template _ | tagBody => true
  | _ => false

end Surroundings

/-- The same characters are different tokens in different surroundings: `<` opens a tag where an operand is
expected and compares otherwise.  So the surroundings are kept as a stack, with the knowledge whether an
operand is expected. -/
structure Lexer where
  rest : List Char
  pos : Nat
  /-- The offset behind the last character of the source. -/
  finish : Nat
  /-- Innermost first. -/
  around : List Surroundings
  operandExpected : Bool
  previous : Option Token
  previousEnd : Nat
  /-- A line has ended since the previous token. -/
  lineBreak : Bool
  /-- A line had ended in front of the previous token. -/
  lineBreakBefore : Bool
  isFirst : Bool
  /-- Where a regular expression is to be read again. -/
  regexFrom : Option (Nat × List Char)
  /-- Comments that wait for the next token, in order. -/
  pending : List Comment
  comments : Comments
  faults : List Fault

namespace Lexer

def ofSource (source : List Char) : Lexer where
  rest := source
  pos := 1
  finish := source.length + 1
  around := [.blockBrace]
  operandExpected := true
  previous := none
  previousEnd := 1
  lineBreak := false
  lineBreakBefore := false
  isFirst := true
  regexFrom := none
  pending := []
  comments := {}
  faults := []

/-- The number of characters that are left, as a bound for the loops below. -/
def left (l : Lexer) : Nat := l.finish - l.pos + 1

def skip (l : Lexer) (n : Nat) : Lexer :=
  { l with rest := l.rest.drop n, pos := l.pos + n }

def note (l : Lexer) (span : Span) (cause : Cause) : Lexer :=
  { l with faults := ⟨span,cause⟩ :: l.faults }

def head (l : Lexer) : Option Char := l.rest.head?

def startsWith (l : Lexer) (s : String) : Bool := s.toList.isPrefixOf l.rest

def spanFrom (l : Lexer) (start : Nat) : Span := ⟨start,l.pos⟩

def fail {α : Type} (l : Lexer) (span : Span) (cause : Cause) : Except Fault α × Lexer :=
  (.error ⟨span,cause⟩,l)

def isLineEnd (c : Char) : Bool := c == '\n' || c == '\r' || c == '\u2028' || c == '\u2029'

def isSpace (c : Char) : Bool :=
  c == '\t' || c == '\x0b' || c == '\x0c' || c == ' ' || c == '\u00a0' || c == '\ufeff'
    || c == '\u1680' || ('\u2000' ≤ c && c ≤ '\u200a') || c == '\u202f' || c == '\u205f'
    || c == '\u3000'

/-- May a comment to the right of the previous token belong to it? -/
def mayTrail (l : Lexer) : Bool :=
  match l.previous with
  | some (.mark m) => m == ";" || m == r"{" || m == r"${" || m == r"}"
  | some (.word w) => !keywords.contains w && !literalWords.contains w
  | some (.number _) | some (.string ..) | some (.regex ..) | some (.bigint _)
  | some (.tagText ..) => true
  | _ => false

def mayTrailLine (l : Lexer) : Bool :=
  match l.previous with
  | some t => !t.isBinary
  | none => true

def keepComment (l : Lexer) (forNext : Bool) (c : Comment) : Lexer :=
  if forNext then { l with pending := l.pending ++ [c] }
  else { l with comments := l.comments.addTrailing l.previousEnd c }

/-- Skip a comment of `width` opening characters up to the end of its line. -/
def skipLineComment (l : Lexer) (width : Nat) : Lexer :=
  let forNext := l.lineBreak || !l.mayTrailLine
  let body := (l.rest.drop width).takeWhile (fun c => !isLineEnd c)
  (l.skip (width + body.length)).keepComment forNext ⟨false,String.ofList body⟩

def skipSpaces : Nat → Lexer → Lexer
  | 0, l => l
  | n + 1, l =>
    match l.rest with
    | c :: _ =>
      if isLineEnd c then skipSpaces n { l.skip 1 with lineBreak := true }
      else if isSpace c then skipSpaces n (l.skip 1)
      else l
    | [] => l

/-- The characters in front of the first star with a slash behind it. -/
def commentBody : List Char → Option (List Char)
  | '*' :: '/' :: _ => some []
  | c :: r => (commentBody r).map (c :: ·)
  | [] => none

def skipBlockComment (l : Lexer) : Option Fault × Lexer :=
  let forNext := l.lineBreak || !l.mayTrail
  match commentBody (l.rest.drop 2) with
  | none => (some ⟨Span.point l.finish,.unterminatedComment⟩,l.skip l.left)
  | some body =>
    let l := l.skip (body.length + 4)
    let l := { l with lineBreak := l.lineBreak || body.any isLineEnd }
    let l := skipSpaces l.left l
    let forNext := forNext && l.head != some ';'
    (none,l.keepComment forNext ⟨true,String.ofList body⟩)

def skipBlanks : Nat → Lexer → Option Fault × Lexer
  | 0, l => (none,l)
  | n + 1, l =>
    match l.rest with
    | '/' :: '/' :: _ => skipBlanks n (l.skipLineComment 2)
    | '/' :: '*' :: _ =>
      match l.skipBlockComment with
      | (some f,l) => (some f,l)
      | (none,l) => skipBlanks n l
    | c :: _ =>
      if isLineEnd c then skipBlanks n { l.skip 1 with lineBreak := true }
      else if isSpace c then skipBlanks n (l.skip 1)
      else (none,l)
    | [] => (none,l)

def hexValue? (c : Char) : Option Nat :=
  if c.isDigit then some (c.toNat - '0'.toNat)
  else if 'a' ≤ c && c ≤ 'f' then some (c.toNat - 'a'.toNat + 10)
  else if 'A' ≤ c && c ≤ 'F' then some (c.toNat - 'A'.toNat + 10)
  else none

def hexNumber? (cs : List Char) : Option Nat :=
  if cs.isEmpty then none
  else cs.foldl (fun acc c => do return (← acc) * 16 + (← hexValue? c)) (some 0)

def isSurrogate (n : Nat) : Bool := 0xD800 ≤ n && n ≤ 0xDFFF

def hexUpper (n : Nat) : List Char :=
  [n / 4096 % 16,n / 256 % 16,n / 16 % 16,n % 16].map fun d =>
    if d < 10 then Char.ofNat ('0'.toNat + d) else Char.ofNat ('A'.toNat + d - 10)

/-- The text of a code unit: itself, or its escape if it is half of a pair. -/
def codeText (n : Nat) : List Char :=
  if isSurrogate n then '\\' :: 'u' :: hexUpper n else [Char.ofNat n]

/-- Read a Unicode escape behind its backslash, at the letter u. -/
def readUnicodeEscape (l : Lexer) : Except Cause (List Char) × Lexer :=
  match l.rest.drop 1 with
  | '{' :: r =>
    let digits := r.takeWhile (fun c => (hexValue? c).isSome)
    let l' := l.skip (2 + digits.length)
    match hexNumber? digits, l'.head with
    | some n, some '}' =>
      if n < 0x110000 then (.ok (codeText n),l'.skip 1)
      else (.error .invalidUnicodeEscape,l'.skip 1)
    | _, _ => (.error .invalidUnicodeEscape,l')
  | r =>
    let digits := r.take 4
    match hexNumber? digits with
    | some n =>
      if digits.length = 4 then
        let l' := l.skip 5
        if 0xD800 ≤ n && n < 0xDC00 then
          match l'.rest with
          | '\\' :: 'u' :: r2 =>
            match hexNumber? (r2.take 4) with
            | some m =>
              if (r2.take 4).length = 4 && 0xDC00 ≤ m && m < 0xE000 then
                (.ok [Char.ofNat (0x10000 + (n - 0xD800) * 0x400 + (m - 0xDC00))],l'.skip 6)
              else (.ok (codeText n),l')
            | none => (.ok (codeText n),l')
          | _ => (.ok (codeText n),l')
        else (.ok (codeText n),l')
      else (.error (.badEscape "4 hex characters"),l.skip (1 + digits.length))
    | none => (.error (.badEscape "4 hex characters"),l.skip 1)

def isOctal (c : Char) : Bool := '0' ≤ c && c ≤ '7'

/-- Read an escape at its backslash; the result is the text that it stands for. -/
def readEscape (l : Lexer) (inTemplate : Bool) : Except Fault (List Char) × Lexer :=
  let start := l.pos
  match l.rest.drop 1 with
  | [] => (l.skip 1).fail (Span.point start) .invalidStringEscape
  | c :: r =>
    match c with
    | 'n' => (.ok ['\n'],l.skip 2)
    | 'r' => (.ok ['\r'],l.skip 2)
    | 't' => (.ok ['\t'],l.skip 2)
    | 'b' => (.ok ['\x08'],l.skip 2)
    | 'v' => (.ok ['\x0b'],l.skip 2)
    | 'f' => (.ok ['\x0c'],l.skip 2)
    | '\r' => (.ok [],l.skip (if r.head? = some '\n' then 3 else 2))
    | 'x' =>
      let digits := r.take 2
      match hexNumber? digits with
      | some n =>
        if digits.length = 2 then (.ok [Char.ofNat n],l.skip 4)
        else (l.skip 2).fail (Span.point start) (.badEscape "2 hex characters")
      | none => (l.skip 2).fail (Span.point start) (.badEscape "2 hex characters")
    | 'u' =>
      match (l.skip 1).readUnicodeEscape with
      | (.ok cs,l) => (.ok cs,l)
      | (.error cause,l) => l.fail (Span.point start) cause
    | _ =>
      if c == '\n' || c == '\u2028' || c == '\u2029' then (.ok [],l.skip 2)
      else if isOctal c then
        if c == '0' && !(r.head?.any isOctal) then (.ok ['\x00'],l.skip 2)
        else if inTemplate then (l.skip 2).fail (Span.point start) .legacyOctal
        else
          let limit := if c ≤ '3' then 2 else 1
          let digits := c :: (r.take limit).takeWhile isOctal
          let value := digits.foldl (fun n d => n * 8 + (d.toNat - '0'.toNat)) 0
          ((.ok [Char.ofNat value]),
            ((l.skip (1 + digits.length)).note (Span.point start) .legacyOctal))
      else (.ok [c],l.skip 2)

def readWordLoop : Nat → Lexer → List Char → Bool → Bool → Except Fault (List Char × Bool) × Lexer
  | 0, l, acc, escaped, _ => (.ok (acc.reverse,escaped),l)
  | n + 1, l, acc, escaped, first =>
    match l.rest with
    | '\\' :: r =>
      if r.head? ≠ some 'u' then l.fail (Span.point l.pos) .unicodeEscapeExpected
      else
        let start := l.pos
        match (l.skip 1).readUnicodeEscape with
        | (.ok [c],l) =>
          if (if first then Text.isIdentifierStart c else Text.isIdentifierPart c) then
            readWordLoop n l (c :: acc) true false
          else l.fail (Span.point start) .invalidUnicodeEscape
        | (.ok _,l) => l.fail (Span.point start) .invalidUnicodeEscape
        | (.error cause,l) => l.fail (Span.point start) cause
    | c :: _ =>
      if (if first then Text.isIdentifierStart c else Text.isIdentifierPart c) then
        readWordLoop n (l.skip 1) (c :: acc) escaped false
      else (.ok (acc.reverse,escaped),l)
    | [] => (.ok (acc.reverse,escaped),l)

def readWord (l : Lexer) : Except Fault Token × Lexer :=
  let start := l.pos
  match readWordLoop l.left l [] false true with
  | (.error f,l) => (.error f,l)
  | (.ok (cs,escaped),l) =>
    let text := String.ofList cs
    if escaped && (keywords.contains text || literalWords.contains text) then
      l.fail (l.spanFrom start) (.escapedReservedWord text)
    else (.ok (.word text),l)

/-- The characters that a scan from `start` has passed. -/
def passed (start stop : Lexer) : String := String.ofList (start.rest.take (stop.pos - start.pos))

def readStringLoop (quote : Char) : Nat → Lexer → List Char → Except Fault (List Char × Bool) × Lexer
  | 0, l, acc => (.ok (acc.reverse,false),l)
  | n + 1, l, acc =>
    match l.rest with
    | [] => (.ok (acc.reverse,false),l)
    | c :: _ =>
      if c == quote then (.ok (acc.reverse,true),l.skip 1)
      else if c == '\\' then
        match l.readEscape false with
        | (.ok cs,l) => readStringLoop quote n l (cs.reverse ++ acc)
        | (.error f,l) => (.error f,l)
      else if c == '\n' || c == '\r' then (.ok (acc.reverse,false),l)
      else readStringLoop quote n (l.skip 1) (c :: acc)

def readString (l : Lexer) (quote : Char) : Except Fault Token × Lexer :=
  match readStringLoop quote l.left (l.skip 1) [] with
  | (.error f,l') => (.error f,l')
  | (.ok (cs,closed),l') =>
    let raw := passed l l'
    let l' := if closed then l' else l'.note (l'.spanFrom l.pos) .unterminatedString
    (.ok (.string (String.ofList cs) raw),l')

def separatorsPlaced : List Char → Bool
  | ['_'] => false
  | '_' :: '_' :: _ => false
  | _ :: r => separatorsPlaced r
  | [] => true

/-- Pass over digits and separators; `none` if there is no digit. -/
def readDigits (l : Lexer) (radix : Nat) (isDigit : Char → Bool) :
    Except Fault (List Char) × Lexer :=
  let ds := l.rest.takeWhile (fun c => isDigit c || c == '_')
  if ds.isEmpty then l.fail (Span.point l.pos) (.digitExpected radix)
  else
    let l' := l.skip ds.length
    let l' := if separatorsPlaced ds && ds.head? ≠ some '_' then l'
      else l'.note (Span.point l.pos) .separatorMisplaced
    (.ok (ds.filter (· != '_')),l')

/-- A number ends where no identifier begins. -/
def endNumber (start l : Lexer) : Except Fault Token × Lexer :=
  match l.head with
  | some c =>
    if Text.isIdentifierStart c then l.fail (Span.point l.pos) .identifierAfterNumber
    else (.ok (.number (passed start l)),l)
  | none => (.ok (.number (passed start l)),l)

def readRadixNumber (l : Lexer) (radix : Nat) (isDigit : Char → Bool) : Except Fault Token × Lexer :=
  match (l.skip 2).readDigits radix isDigit with
  | (.error f,l') => (.error f,l')
  | (.ok _,l') =>
    if l'.head = some 'n' then (.ok (.bigint (passed l (l'.skip 1))),l'.skip 1)
    else endNumber l l'

def readExponent (start l : Lexer) : Except Fault Token × Lexer :=
  match l.rest with
  | e :: r =>
    if e == 'e' || e == 'E' then
      match r with
      | [] => (l.skip 1).fail (Span.point (l.pos + 1)) .exponentDigitsMissing
      | sign :: _ =>
        let l' := if sign == '+' || sign == '-' then l.skip 2 else l.skip 1
        match l'.readDigits 10 Char.isDigit with
        | (.error f,l') => (.error f,l')
        | (.ok _,l') => endNumber start l'
    else endNumber start l
  | [] => endNumber start l

def readFraction (start l : Lexer) : Except Fault Token × Lexer :=
  match l.rest with
  | '.' :: r =>
    if r.head?.any (fun c => c.isDigit || c == '_') then
      match (l.skip 1).readDigits 10 Char.isDigit with
      | (.error f,l') => (.error f,l')
      | (.ok _,l') => readExponent start l'
    else readExponent start (l.skip 1)
  | _ => readExponent start l

def readNumber (l : Lexer) : Except Fault Token × Lexer :=
  match l.rest with
  | '0' :: x :: _ =>
    if x == 'x' || x == 'X' then l.readRadixNumber 16 (fun c => (hexValue? c).isSome)
    else if x == 'o' || x == 'O' then l.readRadixNumber 8 isOctal
    else if x == 'b' || x == 'B' then l.readRadixNumber 2 (fun c => c == '0' || c == '1')
    else decimal
  | '.' :: _ => readFraction l l
  | _ => decimal
where
  decimal : Except Fault Token × Lexer :=
    match l.readDigits 10 Char.isDigit with
    | (.error f,l') => (.error f,l')
    | (.ok ds,l') =>
      if l'.head = some 'n' then (.ok (.bigint (passed l (l'.skip 1))),l'.skip 1)
      else if ds.length > 1 && ds.head? = some '0' then
        if ds.all isOctal then endNumber l (l'.note (l'.spanFrom l.pos) .legacyOctal)
        else readFraction l (l'.note (l'.spanFrom l.pos) .legacyDecimal)
      else readFraction l l'

def regexBodyLength : List Char → Nat → (escaped inClass : Bool) → Option Nat
  | [], _, _, _ => none
  | c :: r, n, escaped, inClass =>
    if isLineEnd c then none
    else if escaped then regexBodyLength r (n + 1) false inClass
    else if c == '/' && !inClass then some n
    else
      let inClass := if c == '[' then true else if c == ']' then false else inClass
      regexBodyLength r (n + 1) (c == '\\') inClass

def readRegex (l : Lexer) : Except Fault Token × Lexer :=
  let body := l.rest.drop 1
  match regexBodyLength body 0 false false with
  | none =>
    let line := body.takeWhile (fun c => !isLineEnd c)
    (l.skip (1 + line.length)).fail ⟨l.pos,l.pos + 1 + line.length⟩ .unterminatedRegex
  | some n =>
    let flags := (body.drop (n + 1)).takeWhile Text.isIdentifierPart
    (.ok (.regex (String.ofList (body.take n)) (String.ofList flags)),
      l.skip (n + 2 + flags.length))

def readTemplateLoop (start : Nat) (invalid : Option Fault) :
    Nat → Lexer → Except Fault (Option Fault) × Lexer
  | 0, l => l.fail (Span.point start) .unterminatedTemplate
  | n + 1, l =>
    match l.rest with
    | '`' :: _ => (.ok invalid,l)
    | '$' :: '{' :: _ => (.ok invalid,l)
    | '\\' :: _ =>
      match l.readEscape true with
      | (.ok _,l) => readTemplateLoop start invalid n l
      | (.error f,l) => readTemplateLoop start (invalid <|> some f) n l
    | c :: _ =>
      readTemplateLoop start invalid n { l.skip 1 with lineBreak := l.lineBreak || isLineEnd c }
    | [] => l.fail (Span.point start) .unterminatedTemplate

def readTemplate (l : Lexer) (start : Nat) : Except Fault Token × Lexer :=
  let afterText := match l.previous with
    | some (.templateText ..) => true
    | _ => false
  match l.rest, afterText with
  | '`' :: _, true => (.ok (.mark "`"),l.skip 1)
  | '$' :: '{' :: _, true => (.ok (.mark r"${"),l.skip 2)
  | _, _ =>
    match readTemplateLoop start none l.left l with
    | (.error f,l') => (.error f,l')
    | (.ok invalid,l') => (.ok (.templateText (passed l l') invalid),l')

/-- Read a character reference at its ampersand; a lone ampersand stands for itself. -/
def readEntity (l : Lexer) : Char × Lexer :=
  let body := l.rest.drop 1
  let name := (body.take 9).takeWhile (· != ';')
  if (body.drop name.length).head? = some ';' && name.length < 10 then
    match Entity.value? name with
    | some c => (c,l.skip (name.length + 2))
    | none => ('&',l.skip 1)
  else ('&',l.skip 1)

def noteStray (l : Lexer) (first second : String) : Lexer :=
  l.note (Span.point l.pos) (.unexpectedHint first second)

def readTagTextLoop (start : Nat) : Nat → Lexer → List Char → Except Fault (List Char) × Lexer
  | 0, l, _ => l.fail (Span.point start) .unterminatedMarkup
  | n + 1, l, acc =>
    match l.rest with
    | [] => l.fail (Span.point start) .unterminatedMarkup
    | c :: r =>
      if c == '<' || c == '{' then (.ok acc.reverse,l)
      else if c == '>' then
        readTagTextLoop start n ((l.noteStray "`\x7b'>'\x7d`" "`&gt;`").skip 1) (c :: acc)
      else if c == '}' then
        readTagTextLoop start n ((l.noteStray "`\x7b'\x7d'\x7d`" "`&rbrace;`").skip 1) (c :: acc)
      else if c == '&' then
        let (e,l) := l.readEntity
        readTagTextLoop start n l (e :: acc)
      else if isLineEnd c then
        let l := { l with lineBreak := true }
        if c == '\r' && r.head? = some '\n' then readTagTextLoop start n (l.skip 2) ('\n' :: acc)
        else if c == '\r' then readTagTextLoop start n (l.skip 1) ('\n' :: acc)
        else readTagTextLoop start n (l.skip 1) (c :: acc)
      else readTagTextLoop start n (l.skip 1) (c :: acc)

def readTagStringLoop (quote : Char) : Nat → Lexer → List Char → (List Char × Bool) × Lexer
  | 0, l, acc => ((acc.reverse,false),l)
  | n + 1, l, acc =>
    match l.rest with
    | [] => ((acc.reverse,false),l)
    | c :: r =>
      if c == quote then ((acc.reverse,true),l.skip 1)
      else if c == '&' then
        let (e,l) := l.readEntity
        readTagStringLoop quote n l (e :: acc)
      else if c == '\r' && r.head? = some '\n' then
        readTagStringLoop quote n (l.skip 2) ('\n' :: '\r' :: acc)
      else readTagStringLoop quote n (l.skip 1) (c :: acc)

def readTagString (l : Lexer) (quote : Char) : Except Fault Token × Lexer :=
  let ((cs,closed),l') := readTagStringLoop quote l.left (l.skip 1) []
  let l' := if closed then l' else l'.note (Span.point l.pos) .unterminatedString
  (.ok (.string (String.ofList cs) (passed l l')),l')

def readTagName (l : Lexer) : Except Fault Token × Lexer :=
  let name := match l.rest with
    | c :: r => c :: r.takeWhile (fun c => Text.isIdentifierPart c || c == '-')
    | [] => []
  (.ok (.tagName (String.ofList name)),l.skip name.length)

/-- The marks that are tried, a longer one before its beginnings. -/
def markTable : List String :=
  [">>>=","...","===","!==","**=","<<=",">>=",">>>","&&=","||=","??=","=>","==","!=",
   "<=",">=","++","--","+=","-=","*=","/=","%=","&=","|=","^=","&&","||","??","**",
   "<<",">>",r"{",r"}","(",")","[","]",";",",","<",">","+","-","*","/","%","&",
   "|","^","!","~","?",":","=",".","@","#","`"]

def describeChar (c : Char) : Cause := .unexpectedCharacter c

/-- Read a token that is not markup text and no template text. -/
def readToken (d : Dialect) (m : LexMode) (l : Lexer) : Except Fault Token × Lexer :=
  match l.rest with
  | [] => l.fail (Span.point l.pos) .endOfFile
  | c :: r =>
    if c == '"' || c == '\'' then l.readString c
    else if c.isDigit || (c == '.' && r.head?.any Char.isDigit) then l.readNumber
    else if Text.isIdentifierStart c || c == '\\' then l.readWord
    else if (c == '<' || c == '>') && d.types && m.inType && !m.angleOperators then
      (.ok (.mark c.toString),l.skip 1)
    else
      match markTable.find? l.startsWith with
      | some s => (.ok (.mark s),l.skip s.length)
      | none => (l.skip 1).fail (Span.point l.pos) (describeChar c)

/-- Does a brace open a block here, and not an object? -/
def opensBlock (l : Lexer) : Bool :=
  let afterColon := match l.previous, l.around with
    | some (.mark ":"), .blockBrace :: _ => some true
    | some (.mark ":"), .valueBrace :: _ => some false
    | _, _ => none
  match afterColon with
  | some b => b
  | none =>
    match l.previous with
    | none => true
    | some (.word w) =>
      if w == "return" || w == "yield" then l.lineBreak
      else if w == "else" then true
      else general
    | some (.mark sym) =>
      if sym == ";" || sym == ")" || sym == "<" || sym == ">" || sym == "=>" then true
      else if sym == r"{" then
        match l.around with
        | .valueBrace :: .openingTag :: _ => true
        | .blockBrace :: _ => true
        | _ => false
      else general
    | _ => general
where
  general : Bool :=
    (l.lineBreak && l.previous.any (fun t => plain t && !t.beforeOperand)) || !l.operandExpected
  plain : Token → Bool
    | .word w => !keywords.contains w
    | .mark m => !binaryMarks.contains m && m != "." && m != ":"
    | .templateText .. | .tagName _ | .tagText .. | .tagOpen | .tagClose => false
    | _ => true

/-- The surroundings behind the token `t`, and whether an operand is expected there. -/
def after (d : Dialect) (l : Lexer) (t : Token) (start : Nat) : List Surroundings × Bool :=
  match t with
  | .word w =>
    if keywords.contains w && l.previous = some (.mark ".") then (l.around,false)
    else if w == "function" then
      if l.operandExpected && !l.opensBlock then (.functionValue :: l.around,false)
      else (l.around,false)
    else if w == "class" then
      if l.operandExpected && !l.opensBlock then (.classValue :: l.around,false)
      else (l.around,false)
    else if w == "of" && l.around.head? = some (.statementParen true) then
      (l.around,!(l.previous.any Token.beforeOperand))
    else if !keywords.contains w && !literalWords.contains w then
      match l.previous with
      | some (.word p) =>
        (l.around,(p == "let" || p == "const" || p == "var") && l.lineBreakBefore)
      | _ => (l.around,false)
    else (l.around,t.beforeOperand)
  | .mark sym =>
    if sym == ")" || sym == r"}" then
      match l.around with
      | [] | [_] => (l.around,true)
      | top :: below =>
        match top, below with
        | .blockBrace, .functionValue :: outer => (outer,false)
        | .blockBrace, .classValue :: outer => (outer,false)
        | .embedded, .template s :: outer => (.template s :: outer,false)
        | .embedded, _ => (below,true)
        | _, _ => (below,!top.isValue)
    else if sym == r"{" then
      match d.markup, l.around with
      | true, .openingTag :: _ => (.valueBrace :: l.around,true)
      | true, .tagBody :: _ => (.embedded :: l.around,true)
      | _, _ => ((if l.opensBlock then .blockBrace else .valueBrace) :: l.around,true)
    else if sym == "/" && d.markup && l.previous = some .tagOpen then
      (.closingTag :: l.around.drop 2,false)
    else if sym == r"${" then (.embedded :: l.around,true)
    else if sym == "(" then
      let top : Surroundings := match l.previous with
        | some (.word "if") | some (.word "with") | some (.word "while") => .statementParen false
        | some (.word "for") => .statementParen true
        | _ => .valueParen
      (top :: l.around,true)
    else if sym == "++" || sym == "--" then (l.around,l.operandExpected)
    else if sym == "`" then
      match l.around with
      | .template _ :: outer => (outer,false)
      | _ => (.template start :: l.around,false)
    else (l.around,t.beforeOperand)
  | .tagOpen => (.openingTag :: .tagBody :: l.around,false)
  | .tagClose =>
    match l.around with
    | .openingTag :: below =>
      if l.previous = some (.mark "/") then (below.drop 1,(below.drop 1).head? = some .tagBody)
      else (below,true)
    | .closingTag :: below => (below.drop 1,(below.drop 1).head? = some .tagBody)
    | _ :: below => (below,true)
    | [] => ([],true)
  | _ => (l.around,t.beforeOperand)

/-- The token at the current offset, all blanks that do not belong to it being skipped. -/
def readHere (d : Dialect) (m : LexMode) (l : Lexer) : Except Fault Token × Lexer :=
  let markup := d.markup && !m.inPropertyName && !m.inType
  match markup, l.around, l.rest with
  | true, .tagBody :: _, c :: _ =>
    if c == '<' && l.operandExpected then (.ok .tagOpen,l.skip 1)
    else if c == '<' || c == '{' then l.readToken d m
    else
      match readTagTextLoop l.pos l.left l [] with
      | (.error f,l') => (.error f,l')
      | (.ok cs,l') => (.ok (.tagText (String.ofList cs) (passed l l')),l')
  | true, top :: _, c :: r =>
    let inTag := top = .openingTag || top = .closingTag
    if inTag && Text.isIdentifierStart c then l.readTagName
    else if inTag && c == '>' then (.ok .tagClose,l.skip 1)
    else if inTag && (c == '"' || c == '\'') then l.readTagString c
    else if c == '<' && l.operandExpected && r.head? ≠ some '!' then (.ok .tagOpen,l.skip 1)
    else plain top
  | _, top :: _, _ => plain top
  | _, [], _ => l.readToken d m
where
  plain (top : Surroundings) : Except Fault Token × Lexer :=
    match top with
    | .template start => l.readTemplate start
    | _ => l.readToken d m

/-- Record that `t`, which starts at `start`, was delivered. -/
def deliver (d : Dialect) (l : Lexer) (t : Token) (start : Nat) : Lexer :=
  let (around,operandExpected) := l.after d t start
  { l with
    comments := l.pending.foldl (fun cs c => cs.addLeading start c) l.comments
    pending := []
    around := around
    operandExpected := operandExpected
    previous := some t
    previousEnd := l.pos
    lineBreakBefore := l.lineBreak }

/-- The comments behind the last token belong to it; those of a file without tokens lead the file. -/
def finishComments (l : Lexer) : Lexer :=
  { l with
    comments := l.pending.foldl
      (fun cs c =>
        if l.previousEnd = 1 then cs.addLeading 1 c else cs.addTrailing l.previousEnd c)
      l.comments
    pending := [] }

def next (d : Dialect) (m : LexMode) (l : Lexer) : Option Lexeme × Lexer :=
  match l.regexFrom with
  | some (pos,rest) =>
    let from_ := l.pos
    let (r,l) := { l with pos := pos, rest := rest }.readRegex
    emit r l from_
  | none =>
    let l := { l with lineBreak := l.isFirst, isFirst := false }
    let start := l.pos
    let skips := match l.around with
      | top :: _ => !top.keepsBlanks
      | [] => true
    match (if skips then skipBlanks l.left l else (none,l)) with
    | (some f,l) => emit (.error f) l start
    | (none,l) =>
      if l.rest.isEmpty then (none,l.finishComments)
      else
        let start := l.pos
        let (r,l) := l.readHere d m
        emit r l start
where
  emit (r : Except Fault Token) (l : Lexer) (start : Nat) : Option Lexeme × Lexer :=
    let t := match r with
      | .ok t => t
      | .error f => .broken f
    (some ⟨t,l.spanFrom start,l.lineBreak⟩,l.deliver d t start)

/-- The text of a first line that starts with number sign and exclamation mark. -/
def readShebang (l : Lexer) : Option String × Lexer :=
  match l.rest with
  | '#' :: '!' :: r =>
    let line := r.takeWhile (fun c => !isLineEnd c)
    let l := l.skip (line.length + 2)
    (some (String.ofList line),{ l with previousEnd := l.pos })
  | _ => (none,l)

end Lexer

end PreviewCompiler.Script
