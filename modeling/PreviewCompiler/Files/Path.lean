import PreviewCompiler.Text.Split

namespace PreviewCompiler.Path

def isSlash (c : Char) : Bool := c == '/' || c == '\\'

/-- Take one more segment behind those taken, the last one in front. -/
def push (taken : List (List Char)) (segment : List Char) : List (List Char) :=
  if segment = [] ∨ segment = ['.'] then taken
  else if segment = ['.','.'] then taken.drop 1
  else segment :: taken

/-- The segments that a path leads through, the dots worked out; above the root is the root. -/
def segments (path : List Char) : List (List Char) :=
  ((Text.splitAll isSlash path).foldl push []).reverse

def ofSegments (segments : List (List Char)) : List Char :=
  match segments with
  | [] => ['/']
  | segments => segments.flatMap ('/' :: ·)

/-- The canonical path that a text means: `/`, or segments behind slashes that are neither empty nor dots. -/
def normalize (path : String) : String := String.ofList (ofSegments (segments path.toList))

/-- The characters in front of the last one that `p` holds of; `none` if there is no such one. -/
def beforeLast? (p : Char → Bool) (cs : List Char) : Option (List Char) :=
  match cs.reverse.dropWhile (!p ·) with
  | [] => none
  | _ :: front => some front.reverse

def parent (path : String) : String :=
  match beforeLast? (· == '/') path.toList with
  | none | some [] => "/"
  | some front => String.ofList front

def fileName (path : List Char) : List Char := (path.reverse.takeWhile (· != '/')).reverse

/-- The end of the file name from its last dot on, in lower case; a name that only starts with a dot has
none. -/
def extension? (path : String) : Option String :=
  let name := fileName path.toList
  match beforeLast? (· == '.') name with
  | none | some [] => none
  | some front => some (String.ofList ((name.drop front.length).map Char.toLower))

/-- The directories around a canonical path, the nearest first, without the root. -/
def ancestors (path : String) : List String :=
  let segs := segments path.toList
  ((List.range segs.length).map fun n => segs.take n).reverse.filterMap fun
    | [] => none
    | s => some (String.ofList (ofSegments s))

end PreviewCompiler.Path
