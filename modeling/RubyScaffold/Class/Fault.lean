import RubyScaffold.Class.Outline
import RubyScaffold.Naming.VariableName

/-!
What can be wrong with a class outline. The instance variables are looked at in their order and
the first fault counts; a declared constructor clashes with the one that instance variables bring.
-/

set_option autoImplicit false

namespace RubyScaffold

def constructorName : String := "initialize"

inductive ClassFault where
  | missingSigil (field : String)
  | badName (field : String) (reason : Naming.NameFault)
  | constructorClash
  deriving DecidableEq, Repr

def fieldFault? (field : String) : Option ClassFault :=
  match ClassOutline.bareField? field with
  | none => some (.missingSigil field)
  | some name => (Naming.nameFault? name).map (.badName field)

def ClassOutline.fault? {δ : Type} (c : ClassOutline δ) : Option ClassFault :=
  match c.fields.findSome? fieldFault? with
  | some fault => some fault
  | none =>
    if !c.fields.isEmpty && c.methods.contains constructorName then some .constructorClash
    else none

end RubyScaffold
