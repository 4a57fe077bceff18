import PreviewCompiler.Compile.Error
import PreviewCompiler.Preview.Message

namespace PreviewCompiler

inductive ServerEvent where
  /-- There is a new document. -/
  | document (version : Nat) (entry : String)
  | compileError (error : CompileError)
  | runtimeError (error : RuntimeError)
  deriving DecidableEq, Repr

namespace CompileError

def fields (e : CompileError) : List (String × Json) :=
  [("code",.string e.code),("message",.string e.message),
   ("path",match e.path? with
     | some p => .string p
     | none => .null)]

end CompileError

namespace ServerEvent

def toJson : ServerEvent → Json
  | document version entry =>
    .object [("type",.string "document"),("version",.ofNat version),("entry",.string entry)]
  | compileError e => .object (("type",.string "compile-error") :: e.fields)
  | runtimeError e => .object (("type",.string "runtime-error") :: e.fields)

end ServerEvent

end PreviewCompiler
