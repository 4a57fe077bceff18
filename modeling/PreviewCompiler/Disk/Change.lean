import PreviewCompiler.Disk.Basic

namespace PreviewCompiler.Disk

mutual

def filesAt (place : List RawText) (n : DiskNode) : List (List RawText × List UInt8) :=
  match n with
  | .file bytes => [(place,bytes)]
  | .link _ => []
  | .directory es => filesIn place es

def filesIn (place : List RawText) : List (RawText × DiskNode) → List (List RawText × List UInt8)
  | [] => []
  | (name,n) :: es => filesAt (place ++ [name]) n ++ filesIn place es

end

def changedFiles (before after : Disk) : List (List RawText × List UInt8) :=
  (filesAt [] after.top).filter fun (place,bytes) =>
    match before.top.get? place with
    | some (.file old) => old != bytes
    | _ => true

end PreviewCompiler.Disk
