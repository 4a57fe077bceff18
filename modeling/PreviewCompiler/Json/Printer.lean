import PreviewCompiler.Json.Basic

namespace PreviewCompiler.Json

def hexDigit (n : Nat) : Char :=
  (Nat.toDigits 16 n).headD '0'

def escapeChar (c : Char) : List Char :=
  if c = '"' then ['\\','"']
  else if c = '\\' then ['\\','\\']
  else if c = '\x08' then ['\\','b']
  else if c = '\x0c' then ['\\','f']
  else if c = '\n' then ['\\','n']
  else if c = '\r' then ['\\','r']
  else if c = '\t' then ['\\','t']
  else if c < ' ' then ['\\','u','0','0',hexDigit (c.toNat / 16),hexDigit (c.toNat % 16)]
  else [c]

def quote (s : String) : String :=
  String.ofList ('"' :: s.toList.flatMap escapeChar ++ ['"'])

mutual

def compact : Json → String
  | null => "null"
  | bool b => if b then "true" else "false"
  | number n => n.text
  | string s => quote s
  | array es => "[" ++ ",".intercalate (compactAll es) ++ "]"
  | object fs => r"{" ++ ",".intercalate (compactFields fs) ++ r"}"

def compactAll : List Json → List String
  | [] => []
  | v :: vs => compact v :: compactAll vs

def compactFields : List (String × Json) → List String
  | [] => []
  | (k,v) :: fs => (quote k ++ ":" ++ compact v) :: compactFields fs

end

/-- Two blanks for each level. -/
def margin (depth : Nat) : String := "".pushn ' ' (2 * depth)

def layOut (depth : Nat) (opening closing : String) (items : List String) : String :=
  if items.isEmpty then opening ++ closing
  else
    opening ++ "\n" ++ ",\n".intercalate (items.map (margin (depth + 1) ++ ·)) ++ "\n"
      ++ margin depth ++ closing

mutual

def prettyAt (depth : Nat) : Json → String
  | array es => layOut depth "[" "]" (prettyAll (depth + 1) es)
  | object fs => layOut depth r"{" r"}" (prettyFields (depth + 1) fs)
  | v => compact v

def prettyAll (depth : Nat) : List Json → List String
  | [] => []
  | v :: vs => prettyAt depth v :: prettyAll depth vs

def prettyFields (depth : Nat) : List (String × Json) → List String
  | [] => []
  | (k,v) :: fs => (quote k ++ ": " ++ prettyAt depth v) :: prettyFields depth fs

end

def pretty (v : Json) : String := prettyAt 0 v

end PreviewCompiler.Json
