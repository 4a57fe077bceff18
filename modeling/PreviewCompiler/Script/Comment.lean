import PreviewCompiler.Script.Source

namespace PreviewCompiler.Script

structure Comment where
  /-- Written between slash and star, not behind two slashes. -/
  isBlock : Bool
  text : String
  deriving DecidableEq, Repr

/-- Comments by the offset that they are attached to: a leading one to the start of the token behind it, a
trailing one to the end of the token in front of it. -/
structure Comments where
  leading : List (Nat × Comment) := []
  trailing : List (Nat × Comment) := []
  deriving Repr, Inhabited

namespace Comments

def addLeading (cs : Comments) (offset : Nat) (c : Comment) : Comments :=
  { cs with leading := cs.leading ++ [(offset,c)] }

def addTrailing (cs : Comments) (offset : Nat) (c : Comment) : Comments :=
  { cs with trailing := cs.trailing ++ [(offset,c)] }

def leadingAt (cs : Comments) (offset : Nat) : List Comment :=
  (cs.leading.filter (·.1 == offset)).map (·.2)

def trailingAt (cs : Comments) (offset : Nat) : List Comment :=
  (cs.trailing.filter (·.1 == offset)).map (·.2)

def dropLeading (cs : Comments) (offset : Nat) : Comments :=
  { cs with leading := cs.leading.filter (·.1 != offset) }

def dropTrailing (cs : Comments) (offset : Nat) : Comments :=
  { cs with trailing := cs.trailing.filter (·.1 != offset) }

/-- The leading comments at `source` go behind those at `target`. -/
def moveLeading (cs : Comments) (source target : Nat) : Comments :=
  let moved := cs.leadingAt source
  if moved.isEmpty then cs
  else
    { cs.dropLeading source with
      leading := (cs.dropLeading source).leading ++ moved.map (fun c => (target,c)) }

def moveTrailing (cs : Comments) (source target : Nat) : Comments :=
  let moved := cs.trailingAt source
  if moved.isEmpty then cs
  else
    { cs.dropTrailing source with
      trailing := (cs.dropTrailing source).trailing ++ moved.map (fun c => (target,c)) }

def pure : Comment := ⟨true,"#__PURE__"⟩

/-- Mark what starts at `offset` as free of effects, once. -/
def addPure (cs : Comments) (offset : Nat) : Comments :=
  if (cs.leadingAt offset).contains pure then cs else cs.addLeading offset pure

end Comments

end PreviewCompiler.Script
