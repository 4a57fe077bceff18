import PreviewCompiler.Config
import PreviewCompiler.Disk.Walk

namespace PreviewCompiler

inductive ProjectFault where
  | configUnreadable (path : String) (fault : DiskFault)
  | configInvalid (path : String) (fault : Json.Fault)
  | snapshot (root : String) (fault : DiskFault)

namespace ProjectFault

/-- What is told about a walk that failed at its root. -/
def walkMessage (root : String) (fault : DiskFault) : String :=
  "IO error for operation on " ++ root ++ ": " ++ fault.message

def message : ProjectFault → String
  | configUnreadable path fault => "Failed to read config at " ++ path ++ ": " ++ fault.message
  | configInvalid path fault => "Failed to parse config at " ++ path ++ ": " ++ fault.message
  | snapshot root fault => "Failed to read snapshot " ++ root ++ ": " ++ walkMessage root fault

end ProjectFault

namespace ProjectConfig

/-- The settings in a file that must be there. -/
def ofFile (path : RawText) (d : Disk) : Except ProjectFault ProjectConfig :=
  match d.readText path with
  | .error fault => .error (.configUnreadable path.shown fault)
  | .ok text =>
    match parse text with
    | .error fault => .error (.configInvalid path.shown fault)
    | .ok config => .ok config.normalized

/-- The settings of the project at `root`; without a file they are the default ones. -/
def load (root : RawText) (d : Disk) : Except ProjectFault ProjectConfig :=
  let path := root.join fileName
  if d.isFile path then ofFile path d else .ok {}

end ProjectConfig

namespace FileSet

def ofDisk (root : RawText) (d : Disk) : Except ProjectFault FileSet :=
  match d.walk root with
  | .ok found => .ok (ofWalk found)
  | .error fault => .error (.snapshot root.shown fault)

end FileSet

end PreviewCompiler
