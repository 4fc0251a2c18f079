import RubyScaffold.OrderedMap
import RubyScaffold.Naming.ConstantPath

/-!
What is known about a class before it is checked.
-/

set_option autoImplicit false

namespace RubyScaffold

/-- A class as it is described: where it stands, what it loads, what it holds. The values of its
directives are texts, or typed values while it comes from a manifest. -/
structure ClassOutline (δ : Type) where
  name : String
  parent : Option String := none
  /-- The modules around the class, outermost first. -/
  scopes : List String := []
  includes : List String := []
  requires : List String := []
  relativeRequires : List String := []
  /-- The instance variables, each with its sigil. -/
  fields : List String := []
  /-- The methods, each with its parameters if it declares any. -/
  methods : OrderedMap (Option (List String)) := .empty
  topContents : List String := []
  directives : OrderedMap δ := .empty

namespace ClassOutline

variable {δ ε : Type}

def mapDirectives (f : δ → ε) (c : ClassOutline δ) : ClassOutline ε where
  name := c.name
  parent := c.parent
  scopes := c.scopes
  includes := c.includes
  requires := c.requires
  relativeRequires := c.relativeRequires
  fields := c.fields
  methods := c.methods
  topContents := c.topContents
  directives := c.directives.mapValues f

/-- The instance variable without its sigil, if it has one. -/
def bareField? (field : String) : Option String :=
  match field.toList with
  | '@' :: rest => some (String.ofList rest)
  | _ => none

def fieldNames (c : ClassOutline δ) : List String :=
  c.fields.map fun field => (bareField? field).getD field

def filePath (c : ClassOutline δ) : String :=
  Naming.constantFilePath (c.scopes ++ [c.name])

end ClassOutline

end RubyScaffold
