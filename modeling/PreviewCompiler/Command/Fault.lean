import PreviewCompiler.Project

namespace PreviewCompiler.Command

inductive CommandFault where
  | notOpened (path : String) (fault : DiskFault)
  | project (fault : ProjectFault)
  | notCreated (path : String) (fault : DiskFault)
  | notWritten (path : String) (fault : DiskFault)
  | noAddress (host : String)

def CommandFault.message : CommandFault → String
  | notOpened path fault => "Cannot open project " ++ path ++ ": " ++ fault.message
  | project fault => fault.message
  | notCreated path fault => "Failed to create " ++ path ++ ": " ++ fault.message
  | notWritten path fault => "Failed to write " ++ path ++ ": " ++ fault.message
  | noAddress host => "invalid socket address syntax: " ++ host

end PreviewCompiler.Command
