import PreviewCompiler.Style.Fault

namespace PreviewCompiler.Style

structure Input where
  rest : List Piece
  here : Place
  stop : Place

abbrev Parse := EStateM Fault Input

namespace Input

/-- The input up to the first piece that `p` holds of. -/
def before (p : Piece → Bool) (i : Input) : Input :=
  let front := i.rest.takeWhile (!p ·)
  let stop := match (i.rest.drop front.length).head? with
    | some piece => piece.start
    | none => i.stop
  { i with rest := front, stop }

def drop (n : Nat) (i : Input) : Input :=
  let here := match (i.rest.take n).getLast? with
    | some piece => piece.stop
    | none => i.here
  { i with rest := i.rest.drop n, here }

def dropBlanks (i : Input) : Input := i.drop (i.rest.takeWhile Piece.isBlank).length

def inside : Piece → Input
  | .block _ inner _ innerStart innerStop _ => ⟨inner,innerStart,innerStop⟩
  | .token _ start _ => ⟨[],start,start⟩

def place (i : Input) : Place := if i.rest.isEmpty then i.stop else i.here

end Input

def Piece.isComma (p : Piece) : Bool := p.head == .comma

/-- The parts between the commas; `fuel` bounds how many. -/
def Input.splitCommas : (fuel : Nat) → Input → List Input
  | 0, i => [i]
  | fuel + 1, i =>
    let front := i.before Piece.isComma
    if front.rest.length < i.rest.length then
      front :: splitCommas fuel (i.drop (front.rest.length + 1))
    else [i]

namespace Parse

variable {α : Type}

def fail (cause : Cause) : Parse α := do throw ⟨cause,(← get).place⟩

def failAt (place : Place) (cause : Cause) : Parse α := throw ⟨cause,place⟩

def place : Parse Place := return (← get).place

def peek? : Parse (Option Piece) := return (← get).rest.head?

def skip : Parse Unit := modify (·.drop 1)

def skipBlanks : Parse Unit := modify Input.dropBlanks

def next : Parse Piece := do
  match ← peek? with
  | some p =>
    skip
    return p
  | none => fail .endOfInput

def exhausted : Parse Unit := do
  let place ← place
  skipBlanks
  match ← peek? with
  | some p => failAt place (.unexpectedToken p.head)
  | none => return ()

def runAll (p : Parse α) (i : Input) : Except Fault α :=
  match EStateM.run (p <* exhausted) i with
  | .ok a _ => .ok a
  | .error f _ => .error f

def ofExcept : Except Fault α → Parse α
  | .ok a => return a
  | .error f => throw f

end Parse

end PreviewCompiler.Style
