import PreviewCompiler.Json.Fault

namespace PreviewCompiler.Json

open Decimal

/-- Where the reading stands. -/
structure Cursor where
  rest : List Char
  place : Place := ⟨1,0⟩

/-- Goes through a text character by character.  A reader that fails stops where it failed. -/
abbrev Read := EStateM Fault Cursor

namespace Read

/-- The place behind a character; columns count bytes. -/
def step (p : Place) (c : Char) : Place :=
  if c = '\n' then ⟨p.line + 1,0⟩ else ⟨p.line,p.column + c.utf8Size⟩

def peek? : Read (Option Char) := return (← get).rest.head?

def skip : Read Unit :=
  modify fun k => match k.rest with
    | c :: rest => ⟨rest,step k.place c⟩
    | [] => k

def next? : Read (Option Char) := do
  let c ← peek?
  skip
  return c

def fail {α : Type} (cause : Cause) : Read α := do
  throw ⟨cause,some (← get).place⟩

/-- Fail at the first byte of the next character. -/
def failAhead {α : Type} (cause : Cause) : Read α := do
  let k ← get
  let place : Place := match k.rest with
    | [] => k.place
    | c :: _ => if c = '\n' then step k.place c else ⟨k.place.line,k.place.column + 1⟩
  throw ⟨cause,some place⟩

/-- Fail without a place; the value around tells it. -/
def failAround {α : Type} (cause : Cause) : Read α := throw ⟨cause,none⟩

/-- Give a fault without a place the one where the reading stands. -/
def placed {α : Type} (r : Read α) : Read α :=
  tryCatch r fun f => do
    match f.place with
    | some _ => throw f
    | none => fail f.cause

def isBlank (c : Char) : Bool := c == ' ' || c == '\n' || c == '\t' || c == '\r'

/-- Go past blanks; `n` bounds how many. -/
def skipBlanksUpTo : (n : Nat) → Read Unit
  | 0 => return ()
  | n + 1 => do
    if (← peek?).any isBlank then
      skip
      skipBlanksUpTo n

/-- The next character that is no blank. -/
def ahead? : Read (Option Char) := do
  skipBlanksUpTo (← get).rest.length
  peek?

def hexValue? (c : Char) : Option Nat :=
  if c.isDigit then some (c.toNat - '0'.toNat)
  else if 'a' ≤ c ∧ c ≤ 'f' then some (c.toNat - 'a'.toNat + 10)
  else if 'A' ≤ c ∧ c ≤ 'F' then some (c.toNat - 'A'.toNat + 10)
  else none

/-- The number that four digits stand for. -/
def hexEscape : Read Nat := do
  let k ← get
  let bytes := (k.rest.map Char.utf8Size).foldl (· + ·) 0
  if bytes < 4 then
    skipAll k.rest
    fail .endInString
  else
    match (k.rest.take 4).mapM hexValue? with
    | some ds =>
      skipAll (k.rest.take 4)
      return ds.foldl (fun n d => 16 * n + d) 0
    | none =>
      let head := k.rest.take 4
      let line := k.place.line + head.count '\n'
      throw ⟨.invalidEscape,some ⟨line,k.place.column + 4⟩⟩
where
  skipAll : List Char → Read Unit
    | [] => return ()
    | _ :: cs => do
      skip
      skipAll cs

def inString : Read Char := do
  match ← next? with
  | some c => return c
  | none => fail .endInString

/-- The character that `\u` and what follows stand for; a half of a surrogate pair wants the other. -/
def unicodeEscape : Read Char := do
  let n ← hexEscape
  if 0xDC00 ≤ n ∧ n ≤ 0xDFFF then fail .loneSurrogate
  else if n < 0xD800 ∨ 0xDBFF < n then return Char.ofNat n
  else
    if (← inString) != '\\' then fail .halfPair
    if (← inString) != 'u' then fail .halfPair
    let m ← hexEscape
    if m < 0xDC00 ∨ 0xDFFF < m then fail .loneSurrogate
    return Char.ofNat ((n - 0xD800) * 0x400 + (m - 0xDC00) + 0x10000)

def escape : Read Char := do
  match ← inString with
  | '"' => return '"'
  | '\\' => return '\\'
  | '/' => return '/'
  | 'b' => return '\x08'
  | 'f' => return '\x0c'
  | 'n' => return '\n'
  | 'r' => return '\r'
  | 't' => return '\t'
  | 'u' => unicodeEscape
  | _ => fail .invalidEscape

/-- The rest of a string, `read` being what was read of it, backwards; `n` bounds its length. -/
def stringRest : (n : Nat) → (read : List Char) → Read String
  | 0, _ => fail .endInString
  | n + 1, read => do
    match ← next? with
    | none => fail .endInString
    | some '"' => return String.ofList read.reverse
    | some '\\' => stringRest n ((← escape) :: read)
    | some c => if c < ' ' then fail .controlCharacter else stringRest n (c :: read)

def stringBody : Read String := do stringRest ((← get).rest.length + 1) []

/-- Go past a string behind its first quote; what its escapes stand for does not matter. -/
def skipStringRest : (n : Nat) → Read Unit
  | 0 => fail .endInString
  | n + 1 => do
    match ← next? with
    | none => fail .endInString
    | some '"' => return ()
    | some '\\' =>
      match ← inString with
      | 'u' =>
        let _ ← hexEscape
        skipStringRest n
      | c =>
        if ['"','\\','/','b','f','n','r','t'].contains c then skipStringRest n
        else fail .invalidEscape
    | some c => if c < ' ' then fail .controlCharacter else skipStringRest n

def skipString : Read Unit := do skipStringRest ((← get).rest.length + 1)

/-- Whole numbers are kept exactly below this bound. -/
def naturalBound : Nat := UInt64.size

def digit? : Read (Option Nat) :=
  return (← peek?).bind fun c => if c.isDigit then some (c.toNat - '0'.toNat) else none

/-- Digits behind those read, as far as the number stays below the bound: the number, how many digits were
taken, and whether digits are left. -/
def boundedDigits : (fuel significand taken : Nat) → Read (Nat × Nat × Bool)
  | 0, s, t => return (s,t,false)
  | fuel + 1, s, t => do
    match ← digit? with
    | none => return (s,t,false)
    | some d =>
      if naturalBound ≤ 10 * s + d then return (s,t,true)
      else
        skip
        boundedDigits fuel (10 * s + d) (t + 1)

def countDigits : (fuel : Nat) → Read Nat
  | 0 => return 0
  | fuel + 1 => do
    match ← digit? with
    | none => return 0
    | some _ =>
      skip
      return (← countDigits fuel) + 1

def multiply (a b : Binary) : Option Binary :=
  Format.double.round (a.num * b.num) (a.den * b.den)

/-- The quotient of two doubles; the divisor is not zero. -/
def divide (a b : Binary) : Option Binary :=
  Format.double.round (a.num * b.den) (a.den * b.num)

def powerOfTen (n : Nat) : Binary := (Format.double.ofDecimal 1 n).getD ⟨0,0⟩

/-- `significand · 10^exponent`, each step of the way rounded: powers of ten up to 308 are doubles. -/
def scaled : (fuel : Nat) → (value : Binary) → (exponent : Int) → Option Binary
  | 0, value, _ => some value
  | fuel + 1, value, exponent =>
    if exponent.natAbs ≤ 308 then
      if 0 ≤ exponent then multiply value (powerOfTen exponent.natAbs)
      else divide value (powerOfTen exponent.natAbs)
    else if value.significand = 0 then some value
    else if 0 ≤ exponent then none
    else
      match divide value (powerOfTen 308) with
      | some v => scaled fuel v (exponent + 308)
      | none => none

def float (isNegative : Bool) (significand : Nat) (exponent : Int) : Read Number := do
  let start := (Format.double.ofDecimal significand 0).getD ⟨0,0⟩
  match scaled 8 start exponent with
  | some b => return .float isNegative b
  | none => fail .numberTooLarge

/-- The exponent of a number, which starts at the next character. -/
def exponentPart (isNegative : Bool) (significand : Nat) (start : Int) : Read Number := do
  skip
  let sign ← peek?
  if sign == some '+' || sign == some '-' then skip
  match ← next? with
  | none => fail .endInValue
  | some c =>
    unless c.isDigit do fail .invalidNumber
    let (e,_,more) ← exponentDigits (← get).rest.length (c.toNat - '0'.toNat) 0
    if more then
      if significand != 0 && sign != some '-' then
        skip
        fail .numberTooLarge
      let _ ← countDigits (← get).rest.length
      return .float isNegative ⟨0,0⟩
    else
      let e : Int := if sign == some '-' then -e else e
      float isNegative significand (start + e)
where
  /-- Digits as far as the exponent fits into 31 bits. -/
  exponentDigits : (fuel e taken : Nat) → Read (Nat × Nat × Bool)
    | 0, e, t => return (e,t,false)
    | fuel + 1, e, t => do
      match ← digit? with
      | none => return (e,t,false)
      | some d =>
        if 2147483648 ≤ 10 * e + d then return (e,t,true)
        else
          skip
          exponentDigits fuel (10 * e + d) (t + 1)

def afterDigits (isNegative : Bool) (significand : Nat) (exponent : Int) : Read Number := do
  let c ← peek?
  if c == some 'e' || c == some 'E' then exponentPart isNegative significand exponent
  else float isNegative significand exponent

def fractionPart (isNegative : Bool) (significand : Nat) (exponent : Int) : Read Number := do
  skip
  let (s,taken,more) ← boundedDigits (← get).rest.length significand 0
  if more then
    let _ ← countDigits (← get).rest.length
    afterDigits isNegative s (exponent - taken)
  else if taken = 0 then
    match ← peek? with
    | some _ => failAhead .invalidNumber
    | none => fail .endInValue
  else afterDigits isNegative s (exponent - taken)

def afterWhole (isNegative : Bool) (significand : Nat) : Read Number := do
  match ← peek? with
  | some '.' => fractionPart isNegative significand 0
  | some 'e' | some 'E' => exponentPart isNegative significand 0
  | _ =>
    if !isNegative then return .natural significand
    else if significand = 0 ∨ UInt64.size / 2 < significand then float true significand 0
    else return .negative significand

def unsigned (isNegative : Bool) : Read Number := do
  match ← next? with
  | none => fail .endInValue
  | some '0' =>
    if (← digit?).isSome then failAhead .invalidNumber
    else afterWhole isNegative 0
  | some c =>
    unless c.isDigit do fail .invalidNumber
    let (s,_,more) ← boundedDigits (← get).rest.length (c.toNat - '0'.toNat) 0
    if more then
      let dropped ← countDigits (← get).rest.length
      match ← peek? with
      | some '.' => fractionPart isNegative s dropped
      | _ => afterDigits isNegative s dropped
    else afterWhole isNegative s

def number : Read Number := do
  if (← peek?) == some '-' then
    skip
    unsigned true
  else unsigned false

/-- Go past a number, whatever its size. -/
def skipNumber : Read Unit := do
  if (← peek?) == some '-' then skip
  match ← next? with
  | none => fail .endInValue
  | some '0' => if (← digit?).isSome then failAhead .invalidNumber
  | some c =>
    unless c.isDigit do fail .invalidNumber
    let _ ← countDigits (← get).rest.length
  if (← peek?) == some '.' then
    skip
    if (← countDigits (← get).rest.length) = 0 then
      match ← peek? with
      | some _ => failAhead .invalidNumber
      | none => fail .endInValue
  let c ← peek?
  if c == some 'e' || c == some 'E' then
    skip
    let sign ← peek?
    if sign == some '+' || sign == some '-' then skip
    match ← next? with
    | none => fail .endInValue
    | some c => unless c.isDigit do fail .invalidNumber
    let _ ← countDigits (← get).rest.length

def wordRest : List Char → Read Unit
  | [] => return ()
  | c :: cs => do
    match ← next? with
    | none => fail .endInValue
    | some d => if c = d then wordRest cs else fail .wordExpected

def word (s : String) : Read Unit := do
  skip
  wordRest (s.toList.drop 1)

def colon : Read Unit := do
  match ← ahead? with
  | some ':' => skip
  | some _ => failAhead .colonExpected
  | none => fail .endInObject

/-- Is there another element?  Goes past the comma in front of it. -/
def moreElements (isFirst : Bool) : Read Bool := do
  match ← ahead? with
  | none => fail .endInList
  | some ']' => return false
  | some ',' =>
    if isFirst then return true
    skip
    match ← ahead? with
    | some ']' => failAhead .trailingComma
    | some _ => return true
    | none => fail .endInValue
  | some _ => if isFirst then return true else failAhead .listGoesOn

/-- Is there another field?  Goes past the comma in front of it. -/
def moreFields (isFirst : Bool) : Read Bool := do
  match ← ahead? with
  | none => fail .endInObject
  | some '}' => return false
  | some ',' =>
    if isFirst then failAhead .keyExpected
    skip
    match ← ahead? with
    | some '"' => return true
    | some '}' => failAhead .trailingComma
    | some _ => failAhead .keyExpected
    | none => fail .endInValue
  | some '"' => if isFirst then return true else failAhead .objectGoesOn
  | some _ => if isFirst then failAhead .keyExpected else failAhead .objectGoesOn

def endList : Read Unit := do
  match ← ahead? with
  | some ']' => skip
  | some ',' =>
    skip
    if (← ahead?) == some ']' then failAhead .trailingComma else failAhead .trailingCharacters
  | some _ => failAhead .trailingCharacters
  | none => fail .endInList

def endObject : Read Unit := do
  match ← ahead? with
  | some '}' => skip
  | some ',' => failAhead .trailingComma
  | some _ => failAhead .trailingCharacters
  | none => fail .endInObject

/-- Read up to the end mark even if the content is at fault; the fault of the content counts. -/
def closed {α : Type} (content : Read α) (finish : Read Unit) : Read α := placed do
  let a ← tryCatch content fun f => do
    tryCatch finish fun _ => return ()
    throw f
  finish
  return a

def elements {α : Type} (item : Read α) : (isFirst : Bool) → (n : Nat) → Read (List α)
  | _, 0 => return []
  | isFirst, n + 1 => do
    if ← moreElements isFirst then
      let v ← item
      return v :: (← elements item false n)
    else return []

def fields {α : Type} (item : Read α) : (isFirst : Bool) → (n : Nat) → Read (List (String × α))
  | _, 0 => return []
  | isFirst, n + 1 => do
    if ← moreFields isFirst then
      skip
      let k ← stringBody
      colon
      let v ← item
      return (k,v) :: (← fields item false n)
    else return []

def listBody {α : Type} (item : Read α) : Read (List α) := do
  skip
  closed (do elements item true (← get).rest.length) endList

def objectBody {α : Type} (item : Read α) : Read (List (String × α)) := do
  skip
  closed (do fields item true (← get).rest.length) endObject

/-- A value; `inner?` reads the values inside of it, unless that is too deep. -/
def valueWith (inner? : Option (Read Json)) : Read Json := do
  match ← ahead? with
  | none => fail .endInValue
  | some 'n' =>
    word "null"
    return .null
  | some 't' =>
    word "true"
    return .bool true
  | some 'f' =>
    word "false"
    return .bool false
  | some '"' =>
    skip
    return .string (← stringBody)
  | some '[' =>
    match inner? with
    | none => failAhead .tooDeep
    | some inner => return .array (← listBody inner)
  | some '{' =>
    match inner? with
    | none => failAhead .tooDeep
    | some inner => return .object (← objectBody inner)
  | some c =>
    if c == '-' || c.isDigit then return .number (← number) else failAhead .valueExpected

def value : (depth : Nat) → Read Json
  | 0 => valueWith none
  | depth + 1 => valueWith (some (value depth))

/-- How many levels a text may open. -/
def depthLimit : Nat := 127

def finish : Read Unit := do
  match ← ahead? with
  | some _ => failAhead .trailingCharacters
  | none => return ()

def runAll {α : Type} (r : Read α) (s : String) : Except Fault α :=
  match EStateM.run (r <* finish) { rest := s.toList } with
  | .ok a _ => Except.ok a
  | .error f _ => Except.error f

end Read

def parse (s : String) : Except Fault Json := Read.runAll (Read.value Read.depthLimit) s

end PreviewCompiler.Json
