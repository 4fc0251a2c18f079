import RubyScaffold.Class.Spec
import RubyScaffold.Code.ClassBody
import RubyScaffold.Code.Preamble
import RubyScaffold.Layout.Page

/-!
The whole text of a generated file.
-/

set_option autoImplicit false

namespace RubyScaffold

open Layout Code

/-- The fragments of a file: the preamble, then the class inside its modules. -/
def ClassSpec.fragments (spec : ClassSpec) (settings : Settings) : List Fragment :=
  (Preamble.ofClass spec.toClassOutline settings).fragments ++
    inScopes spec.scopes (classFragments spec.toClassOutline)

def ClassSpec.document (spec : ClassSpec) (settings : Settings) : String :=
  print (spec.fragments settings)

end RubyScaffold
