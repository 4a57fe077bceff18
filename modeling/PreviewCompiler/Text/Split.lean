namespace PreviewCompiler.Text

/-- The pieces between the separators; `n` separators give `n + 1` pieces. -/
def splitAll {α : Type} (isSeparator : α → Bool) : List α → List (List α)
  | [] => [[]]
  | c :: cs =>
    if isSeparator c then [] :: splitAll isSeparator cs
    else match splitAll isSeparator cs with
      | piece :: pieces => (c :: piece) :: pieces
      | [] => [[c]]

/-- What stands in front of the first occurrence of `pattern` and what behind it. -/
def cutAt? (pattern : List Char) : List Char → Option (List Char × List Char)
  | [] => if pattern.isEmpty then some ([],[]) else none
  | c :: cs =>
    if pattern.isPrefixOf (c :: cs) then some ([],(c :: cs).drop pattern.length)
    else (cutAt? pattern cs).map fun (front,back) => (c :: front,back)

/-- Put `replacement` in the place of every occurrence of `pattern`, from left to right; `skip`
characters belong to an occurrence that has been replaced already. -/
def replaceFrom (pattern replacement : List Char) : (skip : Nat) → List Char → List Char
  | _, [] => []
  | skip + 1, _ :: cs => replaceFrom pattern replacement skip cs
  | 0, c :: cs =>
    if pattern.isPrefixOf (c :: cs) then
      replacement ++ replaceFrom pattern replacement (pattern.length - 1) cs
    else c :: replaceFrom pattern replacement 0 cs

/-- Put `replacement` in the place of every occurrence of `pattern`, which is not empty. -/
def replace (pattern replacement : String) (s : String) : String :=
  String.ofList (replaceFrom pattern.toList replacement.toList 0 s.toList)

def dropEndWhile (p : Char → Bool) (cs : List Char) : List Char :=
  (cs.reverse.dropWhile p).reverse

def dropEndSlashes (s : String) : String :=
  String.ofList (dropEndWhile (· == '/') s.toList)

def hasFront (front s : String) : Bool := front.toList.isPrefixOf s.toList

end PreviewCompiler.Text
