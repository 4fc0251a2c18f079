/-!
What a validator says about a document.
-/

set_option autoImplicit false

namespace RubyScaffold

structure Report where
  ok : Bool
  diagnostic : Option String
  deriving DecidableEq, Repr

namespace Report

def valid : Report := ⟨true, none⟩

def invalid (diagnostic : String) : Report := ⟨false, some diagnostic⟩

end Report

/-- A judge of documents, which may have effects of its own. -/
abbrev Validator (m : Type → Type) := String → m Report

def Validator.acceptAll {m : Type → Type} [Monad m] : Validator m := fun _ => pure .valid

end RubyScaffold
