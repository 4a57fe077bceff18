namespace PreviewCompiler

/-- The tickets of passes over the project.  A pass leaves its result only if no pass with a later ticket has
done so. -/
structure Gate where
  /-- The last ticket that was given out. -/
  requested : Nat := 0
  /-- The latest ticket whose pass has left its result. -/
  committed : Nat := 0
  deriving DecidableEq, Repr

abbrev Ticket := Nat

namespace Gate

def request (g : Gate) : Ticket × Gate := (g.requested + 1,{ g with requested := g.requested + 1 })

/-- Let a pass leave its result, unless a later one has. -/
def tryCommit (t : Ticket) (g : Gate) : Option Gate :=
  if g.committed < t then some { g with committed := t } else none

def isLatest (t : Ticket) (g : Gate) : Bool := g.requested == t

theorem committed_of_tryCommit {t : Ticket} {g g' : Gate} (h : g.tryCommit t = some g') :
    g.committed < t ∧ g' = { g with committed := t } := by
  unfold tryCommit at h
  split at h
  · rename_i hlt
    exact ⟨hlt,(Option.some.inj h).symm⟩
  · contradiction

end Gate

end PreviewCompiler
