import PreviewCompiler.Version

namespace PreviewCompiler.Command

inductive OptionUse where
  | flag
  /-- A flag that may be given again. -/
  | counter
  | path
  | text
  | port
  | help
  | version
  deriving DecidableEq, Repr

structure CommandOption where
  name : String
  letter : Option Char := none
  use : OptionUse
  /-- What help calls the value. -/
  label : String := ""
  about : String
  deriving DecidableEq, Repr

namespace CommandOption

def takesValue (o : CommandOption) : Bool := o.use = .path ∨ o.use = .text ∨ o.use = .port

def verbose : CommandOption where
  name := "verbose"
  letter := some 'v'
  use := .counter
  about := "Increase logging verbosity (-v for DEBUG, -vv for TRACE)"

def json : CommandOption where
  name := "json"
  use := .flag
  about := "Emit JSON formatted output (stable, machine-readable)"

def workingDirectory : CommandOption where
  name := "cwd"
  use := .path
  label := "PATH"
  about := "Override the working directory"

def help : CommandOption where
  name := "help"
  letter := some 'h'
  use := .help
  about := "Print help"

def version : CommandOption where
  name := "version"
  letter := some 'V'
  use := .version
  about := "Print version"

def printDocument : CommandOption where
  name := "print-document"
  use := .flag
  about := "Print the assembled preview document"

def printImportMap : CommandOption where
  name := "print-import-map"
  use := .flag
  about := "Print the import map"

def out : CommandOption where
  name := "out"
  letter := some 'o'
  use := .path
  label := "DIR"
  about := "Export index.html and every compiled module into this directory"

def host : CommandOption where
  name := "host"
  use := .text
  label := "HOST"
  about := "Host to bind to (overrides livepreview.json)"

def port : CommandOption where
  name := "port"
  letter := some 'p'
  use := .port
  label := "PORT"
  about := "Port to listen on (overrides livepreview.json)"

end CommandOption

inductive Topic where
  | program
  | version
  | check
  | serve
  | help
  deriving DecidableEq, Repr

/-- What may stand on the command line without an option before it. -/
structure Operand where
  label : String
  about : String
  deriving DecidableEq, Repr

namespace Topic

def name : Topic → String
  | program => programName
  | version => "version"
  | check => "check"
  | serve => "serve"
  | help => "help"

def about : Topic → String
  | program => "Live preview compiler for generated React components"
  | version => "Print version information"
  | check => "Compile a project once and report the preview it produces"
  | serve => "Serve a live preview that recompiles on every change"
  | help => "Print this message or the help of the given subcommand(s)"

def commands : List Topic := [version,check,serve,help]

def ofName? (name : String) : Option Topic := commands.find? (·.name == name)

/-- The options, in the order in which help shows them. -/
def options : Topic → List CommandOption
  | program => [.verbose,.json,.workingDirectory,.help,.version]
  | version => [.verbose,.json,.workingDirectory,.help]
  | check =>
    [.printDocument,.verbose,.json,.printImportMap,.workingDirectory,.out,.help]
  | serve => [.host,.verbose,.json,.port,.workingDirectory,.help]
  | help => []

def directory : Operand := ⟨"[DIR]","Project directory (defaults to the working directory)"⟩

def operand? : Topic → Option Operand
  | check | serve => some directory
  | help => some ⟨"[COMMAND]...","Print help for the subcommand(s)"⟩
  | program | version => none

end Topic

end PreviewCompiler.Command
