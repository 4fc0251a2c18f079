import RubyScaffold.Files.Tree
import RubyScaffold.Text.Bytes

/-!
Writing generated files: always, or only where nothing stands yet. The content is made before
anything is touched, and not made at all for a file that is kept.
-/

set_option autoImplicit false

namespace RubyScaffold.Files

inductive Overwrite where
  | always
  | ifMissing
  deriving DecidableEq, Repr

inductive Outcome where
  | written
  | skipped
  deriving DecidableEq, Repr

/-- Why a file was not written: its content could not be made, or the tree did not take it. -/
inductive WriteError (ε : Type) where
  | content (e : ε)
  | io

def write {ε : Type} (rule : Overwrite) (path : String) (content : Except ε String)
    (t : FileTree) : Except (WriteError ε) Outcome × FileTree :=
  if rule = .ifMissing ∧ t.exists? path then (.ok .skipped, t)
  else match content with
    | .error e => (.error (.content e), t)
    | .ok text => match t.store path (Text.bytes text) with
      | (t, true) => (.ok .written, t)
      | (t, false) => (.error .io, t)

end RubyScaffold.Files
