/-!
What a user may choose about every generated file.
-/

set_option autoImplicit false

namespace RubyScaffold

structure Settings where
  /-- Whether every file starts with the comment that freezes string literals. -/
  frozenStringLiteral : Bool := true
  deriving DecidableEq, Repr, Inhabited

namespace Settings

def withFrozenStringLiteral (s : Settings) (frozen : Bool) : Settings :=
  { s with frozenStringLiteral := frozen }

def reset (_ : Settings) : Settings := {}

end Settings

end RubyScaffold
