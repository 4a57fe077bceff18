import PreviewCompiler.Script.Fault
import PreviewCompiler.Script.Numeral

namespace PreviewCompiler.Script

/-- Words and marks are known by their spelling; literals and pieces of markup keep what they stand for beside
what was written. -/
inductive Token where
  /-- A keyword or a name; escapes are decoded. -/
  | word (text : String)
  | mark (text : String)
  | string (value raw : String)
  | number (raw : String)
  | bigint (raw : String)
  | regex (body flags : String)
  /-- The text between two marks of a template, and the first of its escapes that is not valid. -/
  | templateText (raw : String) (invalid : Option Fault)
  /-- A name inside a tag, where dashes belong to names. -/
  | tagName (name : String)
  | tagText (value raw : String)
  /-- The `<` and the `>` of a tag. -/
  | tagOpen
  | tagClose
  /-- Characters that form no token. -/
  | broken (fault : Fault)
  deriving DecidableEq, Repr

/-- Words with a meaning of their own, which are never plain names in module code except where the
grammar says so. -/
def keywords : List String :=
  ["await","break","case","catch","class","const","continue","debugger","default","delete",
   "do","else","export","extends","finally","for","function","if","import","in",
   "instanceof","let","new","return","super","switch","this","throw","try","typeof","var",
   "void","while","with","yield"]

def literalWords : List String := ["null","true","false"]

def operandWords : List String :=
  ["await","case","default","do","else","return","throw","new","extends","yield","in",
   "instanceof","typeof","void","delete"]

def binaryMarks : List String :=
  ["==","!=","===","!==","<","<=",">",">=","<<",">>",">>>","+","-","*","/","%","|",
   "^","&","||","&&","**","??"]

/-- How tightly binary operators bind. -/
def operatorStrength : List (String × Nat) :=
  [("??",1),("||",1),("&&",2),("|",3),("^",4),("&",5),("==",6),("!=",6),("===",6),
   ("!==",6),("<",7),("<=",7),(">",7),(">=",7),("in",7),("instanceof",7),("<<",8),
   (">>",8),(">>>",8),("+",9),("-",9),("*",10),("/",10),("%",10),("**",11)]

def assignMarks : List String :=
  ["=","+=","-=","*=","/=","%=","<<=",">>=",">>>=","|=","^=","&=","**=","&&=","||=",
   "??="]

/-- Marks other than operators behind which an operand may stand. -/
def operandMarks : List String :=
  ["=>","...","!","(",r"{","[",";",",",":",r"${","?","~"]

namespace Token

def isPlainWord : Token → Bool
  | word w => !keywords.contains w && !literalWords.contains w
  | _ => false

def isBinary : Token → Bool
  | mark m => binaryMarks.contains m
  | _ => false

def beforeOperand : Token → Bool
  | word w => operandWords.contains w
  | mark m => operandMarks.contains m || binaryMarks.contains m || assignMarks.contains m
  | tagText .. => true
  | _ => false

def startsExpression : Token → Bool
  | word w =>
    !keywords.contains w || ["await","class","delete","function","import","new","super","this",
      "typeof","void","yield"].contains w
  | mark m =>
    ["!","(","+","++","-","--","/","/=","<","[","`",r"{","~","#"].contains m
  | string .. | number _ | bigint _ | regex .. | tagOpen => true
  | _ => false

def isSpelled (t : Token) (s : String) : Bool :=
  match t with
  | word w => w == s
  | mark m => m == s
  | _ => false

def describe : Token → String
  | word w => w
  | mark m => m
  | string value raw => "string literal (" ++ value ++ ", " ++ raw ++ ")"
  | number raw => "numeric literal (" ++ Numeral.plain raw ++ ", " ++ raw ++ ")"
  | bigint raw => "bigint literal (" ++ (raw.dropEnd 1).toString ++ ", " ++ raw ++ ")"
  | regex body flags => "regexp literal (" ++ body ++ ", " ++ flags ++ ")"
  | templateText raw _ => "template token (" ++ raw ++ ")"
  | tagName name => "jsx name (" ++ name ++ ")"
  | tagText _ raw => "jsx text (" ++ raw ++ ")"
  | tagOpen => "< (jsx tag start)"
  | tagClose => "> (jsx tag end)"
  | broken _ => "<lexing error>"

end Token

/-- A token with its span, and whether a line ended between it and the token before. -/
structure Lexeme where
  token : Token
  span : Span
  afterLineBreak : Bool
  deriving DecidableEq, Repr

end PreviewCompiler.Script
