import PreviewCompiler.Text.Split

namespace PreviewCompiler

def placeholderFront : String := "__livepreview_dep_"

/-- What stands in a template for the `i`-th module that it imports, whose address is not known yet. -/
def placeholder (i : Nat) : String := placeholderFront ++ toString i ++ "__"

/-- Put targets in the places of the placeholders from number `i` on. -/
def substituteFrom (i : Nat) : (targets : List String) → (template : String) → String
  | [], template => template
  | t :: ts, template => substituteFrom (i + 1) ts (Text.replace (placeholder i) t template)

/-- Put targets in the places of the placeholders, one after another. -/
def substitute (template : String) (targets : List String) : String :=
  substituteFrom 0 targets template

end PreviewCompiler
