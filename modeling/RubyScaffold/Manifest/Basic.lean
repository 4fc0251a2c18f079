import RubyScaffold.Class.Spec
import RubyScaffold.Decimal.Notation
import RubyScaffold.Settings

/-!
What a manifest says: the settings and one class, whose directives keep the kind of their values.
-/

set_option autoImplicit false

namespace RubyScaffold

inductive DirectiveValue where
  | bool (b : Bool)
  | integer (i : Int64)
  | float (x : Binary64)
  | text (s : String)
  deriving DecidableEq, Repr

def DirectiveValue.display : DirectiveValue → String
  | .bool b => if b then "true" else "false"
  | .integer i => toString i.toInt
  | .float x => Decimal.plainText x
  | .text s => s

abbrev ManifestClass := ClassOutline DirectiveValue

structure Manifest where
  settings : Settings := {}
  cls : ManifestClass

def ClassOutline.displayed (c : ManifestClass) : ClassOutline String :=
  c.mapDirectives DirectiveValue.display

def ClassOutline.toSpec (c : ManifestClass) : Except ClassFault ClassSpec :=
  c.displayed.check

end RubyScaffold
