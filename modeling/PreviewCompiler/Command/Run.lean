import PreviewCompiler.Command.Check
import PreviewCompiler.Command.Help
import PreviewCompiler.Command.Invocation
import PreviewCompiler.Server.Address
import PreviewCompiler.Server.Basic

namespace PreviewCompiler.Command

structure Ending where
  exitCode : UInt8 := 0
  output : String := ""
  complaint : String := ""
  deriving DecidableEq, Repr

inductive CommandResult where
  | ended (ending : Ending)
  | serving (address : String) (server : Server)

namespace Ending

def ofFault (fault : CommandFault) : Ending where
  exitCode := 1
  complaint := "Error: " ++ fault.message ++ "\n"

/-- Help and the version are no faults. -/
def ofStop : Stop → Ending
  | .help t => { output := t.helpText }
  | .version => { output := versionText ++ "\n" }
  | .fault fault =>
    { exitCode := 2
      complaint := "error: " ++ fault.message ++ "\n\nUsage: " ++ Topic.program.usage ++ "\n" }

def ofReport (asksJson : Bool) (r : CheckReport) : Ending :=
  match r.error with
  | none => { output := if asksJson then r.toJson.pretty ++ "\n" else r.text }
  | some e =>
    if asksJson then { exitCode := 1, output := r.toJson.pretty ++ "\n" }
    else { exitCode := 1, complaint := "error: " ++ e.code ++ ": " ++ e.message ++ "\n" }

def ofVersion (asksJson : Bool) : Ending where
  output :=
    (if asksJson then
      (Json.object [("name",.string programName),("version",.string programVersion)]).compact
    else versionText) ++ "\n"

end Ending

/-- Start a server for the project at a path, with a first pass.  The references of the server are in
`space`. -/
def startServer (path : RawText) (space : String) (host : Option String) (port : Option Nat) (d : Disk) :
    Except CommandFault (String × Server) := do
  let project ← OpenedProject.at? path d
  let (_,server) := (Server.start project.root space project.config).recompile d
  let host := host.getD project.config.server.host
  match Server.address? host (port.getD project.config.server.port) with
  | some address => return (address,server)
  | none => throw (.noAddress host)

/-- Run an invocation.  Relative paths start at the working directory. -/
def runInvocation (i : Invocation) (space : String) (d : Disk) : CommandResult × Disk :=
  let here := (i.workingDirectory.map RawText.ofText).getD (Disk.pathOf d.here)
  let root (directory : Option String) : RawText := (directory.map (here.join ·)).getD here
  match i.request with
  | .version => (.ended (.ofVersion i.asksJson),d)
  | .check directory out showsDocument showsImportMap =>
    let (result,d) := check (root directory) (out.map (here.join ·)) showsDocument showsImportMap d
    (match result with
      | .ok report => .ended (.ofReport i.asksJson report)
      | .error fault => .ended (.ofFault fault), d)
  | .serve directory host port =>
    (match startServer (root directory) space host port d with
      | .ok (address,server) => .serving address server
      | .error fault => .ended (.ofFault fault), d)

def run (arguments : List String) (space : String) (d : Disk) : CommandResult × Disk :=
  match Invocation.ofArguments arguments with
  | .ok i => runInvocation i space d
  | .error stop => (.ended (.ofStop stop),d)

end PreviewCompiler.Command
