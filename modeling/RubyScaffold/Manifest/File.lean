import RubyScaffold.Files.Tree
import RubyScaffold.Manifest.Reading
import RubyScaffold.Text.Replacement

/-!
Manifests in files.
-/

set_option autoImplicit false

namespace RubyScaffold.Manifest

/-- The format of a file, by its extension: JSON if that is `json` exactly, else TOML. -/
def formatOf (path : String) : ManifestFormat :=
  if Files.extension? path = some "json" then .json else .toml

/-- The manifest in a file of a tree. A file that is not UTF-8 text cannot be read. -/
def parseFile (t : Files.FileTree) (path : String) : Except ManifestError Manifest :=
  match (t.read? path).bind Text.decodeStrict? with
  | none => .error (.io path)
  | some text => parse (formatOf path) text path

end RubyScaffold.Manifest
