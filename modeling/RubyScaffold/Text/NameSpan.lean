import RubyScaffold.Text.Bytes
import RubyScaffold.Text.Pieces

/-!
Where a name stands in a manifest: between double quotes if it does anywhere, else between single
quotes, else before an equals sign, else wherever it occurs.
-/

set_option autoImplicit false

namespace RubyScaffold.Text

/-- The byte offset of the first occurrence of a text in another. -/
def find? (needle hay : List Char) : Option Nat :=
  (breakAt? needle hay).map fun found => byteLength found.1

def findQuoted? (quote : Char) (name hay : List Char) : Option Nat :=
  (find? (quote :: name ++ [quote]) hay).map (· + quote.utf8Size)

def nameOffset? (name hay : List Char) : Option Nat :=
  ((((findQuoted? '"' name hay).or (findQuoted? '\'' name hay)).or
    (find? (name ++ [' ', '=']) hay)).or (find? (name ++ ['=']) hay)).or (find? name hay)

def nameSpan? (text name : String) : Option (Nat × Nat) :=
  (nameOffset? name.toList text.toList).map fun offset => (offset, byteLength name.toList)

end RubyScaffold.Text
