import PreviewCompiler.Json.Reader

/-!
# Reading values of known types

These readers accept one kind of value each and tell what they expected where they find another.  A record is
an object whose fields have their own readers, or a list of their values in the order of the fields; a field
that is not there keeps its default, and one that is not known is passed over.
-/

namespace PreviewCompiler.Json

namespace Read

variable {σ α : Type}

def wrongType (expected : String) : Read α := do
  match ← ahead? with
  | none => fail .endInValue
  | some 'n' =>
    word "null"
    fail (.invalidType .null expected)
  | some 't' =>
    word "true"
    fail (.invalidType (.bool true) expected)
  | some 'f' =>
    word "false"
    fail (.invalidType (.bool false) expected)
  | some '"' =>
    skip
    let s ← stringBody
    fail (.invalidType (.string s) expected)
  | some '[' => fail (.invalidType .sequence expected)
  | some '{' => fail (.invalidType .map expected)
  | some c =>
    if c == '-' || c.isDigit then
      let n ← number
      fail (.invalidType (.number n) expected)
    else failAhead .valueExpected

def stringWith (expected : String) (check : String → Except Cause α) : Read α := do
  if (← ahead?) == some '"' then
    skip
    match check (← stringBody) with
    | .ok a => return a
    | .error cause => fail cause
  else wrongType expected

def string : Read String := stringWith "a string" Except.ok

def boolean : Read Bool := do
  match ← ahead? with
  | some 't' =>
    word "true"
    return true
  | some 'f' =>
    word "false"
    return false
  | _ => wrongType "a boolean"

def naturalBelow (bound : Nat) (expected : String) : Read Nat := do
  let c ← ahead?
  if c == some '-' || c.any Char.isDigit then
    match ← number with
    | .natural n => if n < bound then return n else fail (.invalidValue (.number (.natural n)) expected)
    | .negative n => fail (.invalidValue (.number (.negative n)) expected)
    | n => fail (.invalidType (.number n) expected)
  else wrongType expected

def list (item : Read α) : Read (List α) := do
  if (← ahead?) == some '[' then listBody item else wrongType "a sequence"

def map (item : Read α) : Read (List (String × α)) := do
  if (← ahead?) == some '{' then objectBody item else wrongType "a map"

/-- Is there another element, none of which matters?  Goes past the comma in front of it. -/
def passComma (isFirst : Bool) (close : Char) (goesOn ended : Cause) : Read Bool := do
  match ← ahead? with
  | none => fail ended
  | some c =>
    if c == close then
      skip
      return false
    else if isFirst then return true
    else if c == ',' then
      skip
      return true
    else failAhead goesOn

def passKey : Read Unit := do
  match ← ahead? with
  | some '"' => skip
  | some _ => failAhead .keyExpected
  | none => fail .endInObject
  skipString
  colon

/-- Go past a value; `n` bounds how many values there can be in it. -/
def pass : (n : Nat) → Read Unit
  | 0 => fail .endInValue
  | n + 1 => do
    match ← ahead? with
    | none => fail .endInValue
    | some 'n' => word "null"
    | some 't' => word "true"
    | some 'f' => word "false"
    | some '"' =>
      skip
      skipString
    | some '[' =>
      skip
      passElements (pass n) n true
    | some '{' =>
      skip
      passFields (pass n) n true
    | some c => if c == '-' || c.isDigit then skipNumber else failAhead .valueExpected
where
  passElements (one : Read Unit) : (n : Nat) → (isFirst : Bool) → Read Unit
    | 0, _ => fail .endInList
    | n + 1, isFirst => do
      if ← passComma isFirst ']' .listGoesOn .endInList then
        one
        passElements one n false
  passFields (one : Read Unit) : (n : Nat) → (isFirst : Bool) → Read Unit
    | 0, _ => fail .endInObject
    | n + 1, isFirst => do
      if ← passComma isFirst '}' .objectGoesOn .endInObject then
        passKey
        one
        passFields one n false

def passValue : Read Unit := do pass ((← get).rest.length + 1)

/-- A field of a record, and how its value is put into the record. -/
structure Field (σ : Type) where
  name : String
  read : σ → Read σ

def field (name : String) (r : Read α) (set : α → σ → σ) : Field σ :=
  ⟨name,fun s => return set (← r) s⟩

/-- The fields of an object; `seen` have been read. -/
def recordFields (fs : List (Field σ)) : (n : Nat) → (isFirst : Bool) → (seen : List String) → σ → Read σ
  | 0, _, _, s => return s
  | n + 1, isFirst, seen, s => do
    if ← moreFields isFirst then
      skip
      let key ← stringBody
      match fs.find? (·.name == key) with
      | some f =>
        if seen.contains key then failAround (.duplicateField key)
        colon
        let s ← f.read s
        recordFields fs n false (key :: seen) s
      | none =>
        colon
        passValue
        recordFields fs n false seen s
    else return s

/-- The values of the fields as a list, which may end early. -/
def recordElements : (fs : List (Field σ)) → (isFirst : Bool) → σ → Read σ
  | [], _, s => return s
  | f :: fs, isFirst, s => do
    if ← moreElements isFirst then
      let s ← f.read s
      recordElements fs false s
    else return s

/-- A record of a name, `start` holding the defaults. -/
def record (name : String) (fs : List (Field σ)) (start : σ) : Read σ := do
  match ← ahead? with
  | some '{' =>
    skip
    closed (do recordFields fs ((← get).rest.length + 1) true [] start) endObject
  | some '[' =>
    skip
    closed (recordElements fs true start) endList
  | _ => wrongType ("struct " ++ name)

def choice (choices : List (String × α)) (name : String) : Except Cause α :=
  match choices.lookup name with
  | some a => .ok a
  | none => .error (.unknownVariant name (choices.map (·.1)))

/-- A choice by its name, which may be the name of a field with nothing in it. -/
def enumeration (choices : List (String × α)) : Read α := do
  match ← ahead? with
  | some '"' => stringWith "variant identifier" (choice choices)
  | some '{' =>
    skip
    let a ← stringWith "variant identifier" (choice choices)
    colon
    if (← ahead?) == some 'n' then word "null" else wrongType "unit"
    match ← ahead? with
    | some '}' =>
      skip
      return a
    | some _ => fail .valueExpected
    | none => fail .endInObject
  | some _ => failAhead .valueExpected
  | none => fail .endInValue

/-- The fields of an object with a tag among them: the tag and the other fields. -/
def taggedFields (tagName : String) (tag : Read α) :
    (n : Nat) → (isFirst : Bool) → (found : Option α) → Read (Option α × List (String × Json))
  | 0, _, found => return (found,[])
  | n + 1, isFirst, found => do
    if ← moreFields isFirst then
      skip
      let key ← stringBody
      if key == tagName then
        if found.isSome then failAround (.duplicateField tagName)
        colon
        let a ← tag
        taggedFields tagName tag n false (some a)
      else
        colon
        let v ← value (depthLimit - 1)
        let (found,fs) ← taggedFields tagName tag n false found
        return (found,(key,v) :: fs)
    else return (found,[])

/-- A value whose kind stands in the field `tagName`, or in front of a list: the kind and the rest. -/
def tagged (name tagName : String) (choices : List (String × α)) : Read (α × Json) := do
  let tag := stringWith "variant identifier" (choice choices)
  match ← ahead? with
  | some '{' =>
    skip
    closed
      (do
        match ← taggedFields tagName tag ((← get).rest.length + 1) true none with
        | (some a,fs) => return (a,.object fs)
        | (none,_) => failAround (.missingField tagName))
      endObject
  | some '[' =>
    skip
    closed
      (do
        if ← moreElements true then
          let a ← tag
          let vs ← elements (value (depthLimit - 1)) false (← get).rest.length
          return (a,.array vs)
        else failAround (.missingField tagName))
      endList
  | _ => wrongType ("internally tagged enum " ++ name)

end Read

def found : Json → Found
  | null => .null
  | bool b => .bool b
  | number n => .number n
  | string s => .string s
  | array _ => .sequence
  | object _ => .map

def asString : Json → Except Cause String
  | string s => .ok s
  | v => .error (.invalidType v.found "a string")

def asNaturalBelow (bound : Nat) (expected : String) : Json → Except Cause Nat
  | number (.natural n) =>
    if n < bound then .ok n else .error (.invalidValue (.number (.natural n)) expected)
  | number (.negative n) => .error (.invalidValue (.number (.negative n)) expected)
  | v => .error (.invalidType v.found expected)

def asOption {α : Type} (decode : Json → Except Cause α) : Json → Except Cause (Option α)
  | null => .ok none
  | v => some <$> decode v

/-- A field of a record that has been read as a value. -/
structure Part (σ : Type) where
  name : String
  decode : Json → σ → Except Cause σ
  isOptional : Bool := false

def decodeFields {σ : Type} (parts : List (Part σ)) :
    (fields : List (String × Json)) → (seen : List String) → σ → Except Cause (List String × σ)
  | [], seen, s => .ok (seen,s)
  | (k,v) :: fields, seen, s =>
    match parts.find? (·.name == k) with
    | none => decodeFields parts fields seen s
    | some p => do
      if seen.contains k then throw (.duplicateField k)
      decodeFields parts fields (k :: seen) (← p.decode v s)

def decodeElements {σ : Type} (expected : String) (total : Nat) :
    (parts : List (Part σ)) → (taken : Nat) → List Json → σ → Except Cause σ
  | [], _, [], s => .ok s
  | [], taken, rest, _ =>
    .error (.invalidLength (taken + rest.length)
      (toString taken ++ (if taken = 1 then " element" else " elements") ++ " in sequence"))
  | p :: parts, taken, [], s =>
    if p.isOptional then decodeElements expected total parts taken [] s
    else
      .error (.invalidLength taken
        (expected ++ " with " ++ toString total ++ (if total = 1 then " element" else " elements")))
  | p :: parts, taken, v :: rest, s => do
    decodeElements expected total parts (taken + 1) rest (← p.decode v s)

def decodeRecord {σ : Type} (expected : String) (parts : List (Part σ)) (start : σ) :
    Json → Except Cause σ
  | object fields => do
    let (seen,s) ← decodeFields parts fields [] start
    match parts.find? fun p => !p.isOptional && !seen.contains p.name with
    | some p => throw (.missingField p.name)
    | none => return s
  | array es => decodeElements expected parts.length parts 0 es start
  | v => .error (.invalidType v.found expected)

end PreviewCompiler.Json
