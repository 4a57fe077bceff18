namespace PreviewCompiler

def programName : String := "livepreview"

def programVersion : String := "0.1.0"

def versionText : String := programName ++ " " ++ programVersion

end PreviewCompiler
