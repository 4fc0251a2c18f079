import RubyScaffold.Naming.SnakeCase

/-!
Where a constant is kept: `Admin::HTTPClient` belongs into `admin/http_client.rb`.
-/

set_option autoImplicit false

namespace RubyScaffold.Naming

/-- The names in a qualified constant: the pieces between its double colons. -/
def constantParts : List Char → List (List Char)
  | [] => [[]]
  | ':' :: ':' :: rest => [] :: constantParts rest
  | c :: rest => match constantParts rest with
    | [] => [[c]]
    | p :: ps => (c :: p) :: ps

def constantNames (segments : List String) : List String :=
  (segments.flatMap fun s => (constantParts s.toList).map String.ofList).filter (· ≠ "")

def constantFilePath (segments : List String) : String :=
  String.intercalate "/" ((constantNames segments).map snakeCase) ++ ".rb"

end RubyScaffold.Naming
