import RubyScaffold.Text.Pieces

/-!
Paths as they are written, with slashes between their parts.
-/

set_option autoImplicit false

namespace RubyScaffold.Files

/-- A step of a path: down to a name, or up. Steps that stay where they are do not count. -/
inductive Step where
  | down (name : String)
  | up
  deriving DecidableEq, Repr

/-- Whether a step holds a NUL, which no system call takes. -/
def Step.holdsNul : Step → Bool
  | .down name => name.toList.contains (Char.ofNat 0)
  | .up => false

def pathParts (path : String) : List String :=
  (Text.pieces '/' path.toList).map String.ofList

def step? (part : String) : Option Step :=
  if part = "" ∨ part = "." then none
  else if part = ".." then some .up
  else some (.down part)

def pathSteps (path : String) : List Step :=
  (pathParts path).filterMap step?

def isAbsolute (path : String) : Bool :=
  path.toList.head? = some '/'

/-- Whether a path can only be a directory: it ends in a slash, or in a part that stays or goes
up. -/
def endsInDirectory (path : String) : Bool :=
  match (pathParts path).getLast? with
  | some part => part = "" || part = "." || part = ".."
  | none => true

/-- A path behind a directory. An absolute path stands for itself. -/
def join (directory path : String) : String :=
  if isAbsolute path ∨ directory = "" then path
  else if directory.toList.getLast? = some '/' then directory ++ path
  else directory ++ "/" ++ path

/-- The part of a name behind its last dot, unless that dot comes first. -/
def extension? (path : String) : Option String :=
  match (pathSteps path).getLast? with
  | some (.down name) =>
    match (Text.pieces '.' name.toList).reverse with
    | [] | [_] | [_, []] => none
    | last :: _ => some (String.ofList last)
  | _ => none

end RubyScaffold.Files
