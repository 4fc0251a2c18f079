import RubyScaffold.Files.Path

/-!
A tree of directories and files, without links and permissions. A place in it is the list of the
names that lead there; the empty list is the root, which is always a directory.
-/

set_option autoImplicit false

namespace RubyScaffold.Files

inductive Entry where
  | directory
  | file (content : List UInt8)
  deriving DecidableEq, Repr

/-- A place: the names from the root to it. -/
abbrev Place := List String

/-- Everything below the root, each with its place, and the working directory, where paths without
a leading slash start. -/
structure FileTree where
  entries : List (Place × Entry) := []
  work : Place := []
  deriving Inhabited

namespace FileTree

def get? (t : FileTree) (p : Place) : Option Entry :=
  if p = [] then some .directory
  else (t.entries.find? fun e => e.1 = p).map Prod.snd

def isDirectory (t : FileTree) (p : Place) : Bool :=
  t.get? p = some .directory

def put (t : FileTree) (p : Place) (e : Entry) : FileTree :=
  if (t.entries.find? fun x => x.1 = p).isSome then
    { t with entries := t.entries.map fun x => if x.1 = p then (p, e) else x }
  else { t with entries := t.entries ++ [(p, e)] }

/-- Whether a name may stand in a directory: it holds no NUL and is at most 255 bytes long. -/
def goodName (name : String) : Bool :=
  decide (name.utf8ByteSize ≤ 255) && !name.toList.contains (Char.ofNat 0)

/-- The place that a step leads to from a place; up from the root is the root. -/
def target? (p : Place) : Step → Option Place
  | .up => some p.dropLast
  | .down name => if goodName name then some (p ++ [name]) else none

/-- The place that steps lead to, through directories that are all there. Nothing need stand at
the place itself. -/
def locate? (t : FileTree) : Place → List Step → Option Place
  | p, [] => some p
  | p, s :: rest =>
    if t.isDirectory p then
      match target? p s with
      | some q => t.locate? q rest
      | none => none
    else none

def start (t : FileTree) (path : String) : Place :=
  if isAbsolute path then [] else t.work

def place? (t : FileTree) (path : String) : Option Place :=
  if path = "" then none else t.locate? (t.start path) (pathSteps path)

/-- What stands at a path. A path that must be a directory finds no file. -/
def lookup? (t : FileTree) (path : String) : Option Entry :=
  match t.place? path with
  | none => none
  | some p => match t.get? p with
    | some (.file content) => if endsInDirectory path then none else some (.file content)
    | e => e

def exists? (t : FileTree) (path : String) : Bool :=
  (t.lookup? path).isSome

def read? (t : FileTree) (path : String) : Option (List UInt8) :=
  match t.lookup? path with
  | some (.file content) => some content
  | _ => none

/-- The tree with every directory made that steps pass through and that is not there, and whether
all of them could be made. -/
def makeDirectories : FileTree → Place → List Step → FileTree × Bool
  | t, _, [] => (t, true)
  | t, p, s :: rest =>
    if t.isDirectory p then
      match target? p s with
      | none => (t, false)
      | some q => match t.get? q with
        | some .directory => t.makeDirectories q rest
        | some (.file _) => (t, false)
        | none => (t.put q .directory).makeDirectories q rest
    else (t, false)

/-- The tree with the directories made that the first steps of a path pass through. Nothing is made
where one of the names holds a NUL. -/
def makeAll (t : FileTree) (path : String) (steps : List Step) : FileTree × Bool :=
  if steps.any Step.holdsNul then (t, false) else t.makeDirectories (t.start path) steps

/-- The tree with a file written, if its directory is there and no directory is in its place. -/
def writeFile? (t : FileTree) (path : String) (content : List UInt8) : Option FileTree :=
  if endsInDirectory path then none
  else match t.place? path with
    | none => none
    | some p => match t.get? p with
      | some .directory => none
      | _ => some (t.put p (.file content))

/-- The tree with a file written and the directories on its way made, and whether that could be
done. Directories made on the way to a failure stay. -/
def store (t : FileTree) (path : String) (content : List UInt8) : FileTree × Bool :=
  match t.makeAll path (pathSteps path).dropLast with
  | (t, false) => (t, false)
  | (t, true) => match t.writeFile? path content with
    | some t => (t, true)
    | none => (t, false)

/-- The paths of everything below the working directory, those of directories with a slash at their
end. -/
def paths (t : FileTree) : List String :=
  ((t.entries.filter fun e => t.work.isPrefixOf e.1 && e.1 != t.work).map fun e =>
    String.intercalate "/" (e.1.drop t.work.length) ++
      (if e.2 = .directory then "/" else "")).mergeSort fun a b => decide (a ≤ b)

end FileTree

end RubyScaffold.Files
