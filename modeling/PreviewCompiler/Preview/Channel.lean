import PreviewCompiler.Preview.Document
import PreviewCompiler.Preview.Message

namespace PreviewCompiler

/-- A queue for each direction.  Either side can go: what is sent to it then is lost, and waiting at an empty
queue ends. -/
structure Channel where
  documents : List HostMessage := []
  errors : List PageMessage := []
  hasHost : Bool := true
  hasPage : Bool := true
  deriving DecidableEq, Repr

inductive Waiting (α : Type) where
  | received (message : α)
  | pending
  | closed

namespace Channel

def render (d : PreviewDocument) (c : Channel) : Channel :=
  if c.hasPage then { c with documents := c.documents ++ [.document d.version d.html] } else c

/-- Send an error to the host; tells whether it is there. -/
def report (e : RuntimeError) (c : Channel) : Bool × Channel :=
  if c.hasHost then (true,{ c with errors := c.errors ++ [.runtimeError e] }) else (false,c)

def nextDocument (c : Channel) : Option HostMessage × Channel :=
  (c.documents.head?,{ c with documents := c.documents.drop 1 })

/-- The next error for the host. -/
def nextError (c : Channel) : Option PageMessage × Channel :=
  (c.errors.head?,{ c with errors := c.errors.drop 1 })

def waitDocument (c : Channel) : Waiting HostMessage × Channel :=
  match c.nextDocument with
  | (some m,c) => (.received m,c)
  | (none,c) => (if c.hasHost && c.hasPage then .pending else .closed,c)

def waitError (c : Channel) : Waiting PageMessage × Channel :=
  match c.nextError with
  | (some m,c) => (.received m,c)
  | (none,c) => (if c.hasPage && c.hasHost then .pending else .closed,c)

/-- The host goes, and what is on its way to it is lost. -/
def dropHost (c : Channel) : Channel := { c with hasHost := false, errors := [] }

/-- The page goes, and what is on its way to it is lost. -/
def dropPage (c : Channel) : Channel := { c with hasPage := false, documents := [] }

end Channel

end PreviewCompiler
