/-!
Cutting text at separators. The pieces of a text are one more than its separators, so joining
them again with the separator gives the text back.
-/

set_option autoImplicit false

namespace RubyScaffold.Text

/-- The pieces between the occurrences of one character; there is always at least one. -/
def pieces (sep : Char) : List Char → List (List Char)
  | [] => [[]]
  | c :: rest =>
    if c = sep then [] :: pieces sep rest
    else match pieces sep rest with
      | [] => [[c]]
      | p :: ps => (c :: p) :: ps

def lines (s : String) : List String :=
  (pieces '\n' s.toList).map String.ofList

def breakAt? (needle : List Char) : List Char → Option (List Char × List Char)
  | [] => if needle.isEmpty then some ([], []) else none
  | c :: rest =>
    if needle.isPrefixOf (c :: rest) then some ([], (c :: rest).drop needle.length)
    else (breakAt? needle rest).map fun found => (c :: found.1, found.2)

end RubyScaffold.Text
