/-!
Pieces of code before they have an indentation.
-/

set_option autoImplicit false

namespace RubyScaffold.Layout

inductive Fragment where
  | line (text : String)
  | blank
  | block (header : String) (body : List Fragment) (close : Option String)
  | comment (text : String)

def Fragment.isBlank : Fragment → Bool
  | .blank => true
  | _ => false

/-- The sections that are not empty, one after the other, with an empty line between them. -/
def separated (sections : List (List Fragment)) : List Fragment :=
  sections.foldl (fun out part =>
    if part.isEmpty then out
    else if out.isEmpty then part
    else out ++ .blank :: part) []

/-- Fragments inside a module for each scope, the first scope outermost. -/
def inScopes (scopes : List String) (body : List Fragment) : List Fragment :=
  scopes.foldr (fun scope inner => [.block ("module " ++ scope) inner (some "end")]) body

end RubyScaffold.Layout
