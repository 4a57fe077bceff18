namespace PreviewCompiler.Text

def escapeShown (c : Char) : String :=
  if c = '"' then "\\\"" else if c = '\\' then "\\\\" else if c = '\n' then "\\n"
  else if c = '\r' then "\\r" else if c = '\t' then "\\t" else if c = '\x00' then "\\0"
  else if c < ' ' || c == '\x7f' then
    "\\u\x7b" ++ String.ofList (Nat.toDigits 16 c.toNat) ++ "\x7d"
  else c.toString

def quoteShown (s : String) : String := "\"" ++ String.join (s.toList.map escapeShown) ++ "\""

end PreviewCompiler.Text
