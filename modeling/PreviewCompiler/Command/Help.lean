import PreviewCompiler.Command.Form

namespace PreviewCompiler.Command

def CommandOption.shape (o : CommandOption) : String :=
  let front := match o.letter with
    | some c => "-" ++ c.toString ++ ", "
    | none => "    "
  let back := match o.use with
    | .counter => "..."
    | .path | .text | .port => " <" ++ o.label ++ ">"
    | .flag | .help | .version => ""
  front ++ "--" ++ o.name ++ back

def helpSection (title : String) (rows : List (String × String)) : String :=
  if rows.isEmpty then ""
  else
    let width := rows.foldl (fun n row => max n row.1.length) 0
    "\n" ++ title ++ ":\n" ++ String.join (rows.map fun (left,right) =>
      "  " ++ left.pushn ' ' (width - left.length) ++ "  " ++ right ++ "\n")

namespace Topic

def usage : Topic → String
  | program => programName ++ " [OPTIONS] [COMMAND]"
  | t =>
    programName ++ " " ++ t.name ++ (if t.options.isEmpty then "" else " [OPTIONS]")
      ++ (match t.operand? with
        | some o => " " ++ o.label
        | none => "")

def helpText (t : Topic) : String :=
  t.about ++ "\n\nUsage: " ++ t.usage ++ "\n"
    ++ helpSection "Commands" (if t = program then commands.map fun c => (c.name,c.about) else [])
    ++ helpSection "Arguments" (t.operand?.toList.map fun o => (o.label,o.about))
    ++ helpSection "Options" (t.options.map fun o => (o.shape,o.about))

end Topic

end PreviewCompiler.Command
