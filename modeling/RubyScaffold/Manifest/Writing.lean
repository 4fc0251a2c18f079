import RubyScaffold.Json.Writer
import RubyScaffold.Manifest.Basic

/-!
Manifests as JSON text, with every field written in the order of its declaration.
-/

set_option autoImplicit false

namespace RubyScaffold

open Json (Value)

def DirectiveValue.toJson : DirectiveValue → Value
  | .bool b => .bool b
  | .integer i => .integer i.toInt
  | .float x => .float x
  | .text s => .text s

def textList (texts : List String) : Value :=
  .list (texts.map .text)

def optional {α : Type} (f : α → Value) : Option α → Value
  | none => .null
  | some a => f a

def OrderedMap.toJson {α : Type} (f : α → Value) (m : OrderedMap α) : Value :=
  .table (m.entries.map fun e => (e.1, f e.2))

namespace Manifest

def settingsJson (s : Settings) : Value :=
  .table [("frozen_string_literal", .bool s.frozenStringLiteral)]

def classJson (c : ManifestClass) : Value :=
  .table [
    ("name", .text c.name),
    ("parent", optional .text c.parent),
    ("modules", textList c.scopes),
    ("includes", textList c.includes),
    ("requires", textList c.requires),
    ("relative_requires", textList c.relativeRequires),
    ("fields", textList c.fields),
    ("methods", c.methods.toJson (optional textList)),
    ("top_contents", textList c.topContents),
    ("directives", c.directives.toJson DirectiveValue.toJson)]

def toJson (m : Manifest) : Value :=
  .table [("settings", settingsJson m.settings), ("class", classJson m.cls)]

def jsonText (m : Manifest) : String :=
  Json.write m.toJson

end Manifest

end RubyScaffold
