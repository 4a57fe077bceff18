import PreviewCompiler.Compile.Error
import PreviewCompiler.Compile.SourceKind
import PreviewCompiler.Files.FileSet
import PreviewCompiler.Style.Printer

namespace PreviewCompiler

structure StyleOptions where
  minify : Bool := false
  autoprefixer : Bool := false
  deriving DecidableEq, Repr

namespace StyleOptions

def isPlain (o : StyleOptions) : Bool := !o.minify && !o.autoprefixer

end StyleOptions

namespace FileSet

def stylesheets (fs : FileSet) : List (String × String) := fs.files.filter fun f => Path.isStylesheet f.1

def plainStyles (fs : FileSet) : String := "\n".intercalate (fs.stylesheets.map (·.2))

def styleText (options : StyleOptions) (file : String × String) : Except CompileError String :=
  match Style.process options.minify options.autoprefixer file.2 with
  | .ok css => .ok css
  | .error f => .error (.style file.1 (f.message file.1))

/-- The stylesheets after processing, in ascending order of their paths, which is the order of the cascade;
the first that is at fault is reported. -/
def styles (fs : FileSet) (options : StyleOptions) : Except CompileError String :=
  if options.isPlain then .ok fs.plainStyles
  else "\n".intercalate <$> fs.stylesheets.mapM (styleText options)

end FileSet

end PreviewCompiler
