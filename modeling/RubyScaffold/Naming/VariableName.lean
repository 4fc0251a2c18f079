import RubyScaffold.Naming.Keyword
import RubyScaffold.Unicode.Alphabetic
import RubyScaffold.Unicode.Numeric

/-!
Names that can serve as an instance variable and as the local variable that sets it.
-/

set_option autoImplicit false

namespace RubyScaffold.Naming

open Unicode

inductive NameFault where
  | empty
  | leadingDigit
  | badStart
  | badCharacter
  | reserved
  deriving DecidableEq, Repr

def NameFault.message : NameFault → String
  | .empty => "instance variable name cannot be empty"
  | .leadingDigit => "instance variable name cannot start with a digit"
  | .badStart => "instance variable name must start with a letter or underscore"
  | .badCharacter =>
    "instance variable name may only contain letters, digits, and underscores"
  | .reserved =>
    "the name is a Ruby reserved word and cannot be used as a local variable"

def startsName (c : Char) : Bool :=
  isAlphabetic c || c = '_'

def continuesName (c : Char) : Bool :=
  isAlphabetic c || isNumeric c || c = '_'

def nameFault? (name : String) : Option NameFault :=
  match name.toList with
  | [] => some .empty
  | c :: rest =>
    if c.isDigit then some .leadingDigit
    else if !startsName c then some .badStart
    else if !rest.all continuesName then some .badCharacter
    else if isKeyword name then some .reserved
    else none

end RubyScaffold.Naming
