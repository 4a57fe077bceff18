import PreviewCompiler.Command.Run
import PreviewCompiler.Disk.Change
import PreviewCompiler.Server.Response

/-!
# The program

Standard input names the files of the project, one on each line, up to an empty line.  A server then takes
one line after the other: an address is asked for, a message of a page is an object, and anything else is the
path of a file that has changed.
-/

namespace PreviewCompiler

def nextLine? (input : IO.FS.Stream) : IO (Option String) := do
  let line ← input.getLine
  return if line.isEmpty then none else some (String.ofList (Text.dropEndWhile (· == '\n') line.toList))

partial def readPaths (input : IO.FS.Stream) : IO (List String) := do
  match ← nextLine? input with
  | none | some "" => return []
  | some path => return path :: (← readPaths input)

/-- The disk with a file as it is now. -/
def loadFile (path : String) (d : Disk) : IO Disk := do
  try
    let bytes := (← IO.FS.readBinFile path).toList
    let (_,d) := d.createDirectories (Disk.parentPath path)
    match d.write path bytes with
    | .ok d => return d
    | .error _ => return d
  catch _ =>
    match d.remove path with
    | .ok d => return d
    | .error _ => return d

def storeFile (place : List RawText) (bytes : List UInt8) : IO Unit := do
  IO.FS.createDirAll (Disk.pathOf place.dropLast).shown
  IO.FS.writeBinFile (Disk.pathOf place).shown (ByteArray.mk bytes.toArray)

def printEvents (events : List ServerEvent) : IO Unit :=
  events.forM fun e => IO.println e.toJson.compact

partial def serveLines (input : IO.FS.Stream) (s : Server) (d : Disk) : IO Unit := do
  match ← nextLine? input with
  | none =>
    let (released,_) := s.teardown
    IO.println ("released " ++ toString released)
  | some line =>
    if (line : RawText).isAbsolute then
      let r := s.respond line
      IO.println (toString r.status ++ " " ++ r.contentType.getD "" ++ "\n" ++ r.body)
      serveLines input s d
    else
      let d ← if Text.hasFront "\x7b" line then pure d else loadFile line d
      let (events,s) :=
        if Text.hasFront "\x7b" line then s.receive line
        else s.watch [{ paths := [(Disk.pathOf d.here).join line] }] d
      printEvents events
      serveLines input s d

end PreviewCompiler

open PreviewCompiler in
def main (arguments : List String) : IO UInt32 := do
  let input ← IO.getStdin
  let here := (← IO.getEnv "PWD").getD "/"
  let (place,start) := ({} : Disk).createDirectories here
  let start := { start with here := place.toOption.getD [] }
  let paths ← match Command.Invocation.ofArguments arguments with
    | .ok ⟨_,_,.version⟩ | .error _ => pure []
    | .ok _ => readPaths input
  let before ← paths.foldlM (fun d path => loadFile path d) start
  let space := "s" ++ String.ofList (Nat.toDigits 16 (← IO.monoNanosNow))
  let (result,after) := Command.run arguments space before
  (Disk.changedFiles before after).forM fun (place,bytes) => storeFile place bytes
  match result with
  | .ended e =>
    IO.print e.output
    IO.eprint e.complaint
    return e.exitCode.toUInt32
  | .serving address s =>
    IO.println ("\n  Preview server running at http://" ++ address ++ "\n  Watching " ++ s.root.shown ++ "\n")
    serveLines input s after
    return 0
