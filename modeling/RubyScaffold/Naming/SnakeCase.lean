import RubyScaffold.Unicode.Lowering
import RubyScaffold.Unicode.Lowercase
import RubyScaffold.Unicode.Uppercase

/-!
Snake case: the words of a camel-case name in lower case, with underscores between them.
-/

set_option autoImplicit false

namespace RubyScaffold.Naming

open Unicode

/-- Whether a word starts at a capital: after a small letter or a digit, or at the last capital
of a run that a small letter follows. -/
def startsWord (before c : Char) (after : Option Char) : Bool :=
  isUppercase c &&
    (isLowercase before || before.isDigit || (isUppercase before && after.any isLowercase))

def snakeTail : Char → List Char → List Char
  | _, [] => []
  | before, c :: rest =>
    (if startsWord before c rest.head? then ['_'] else []) ++ lowering c ++ snakeTail c rest

def snakeChars : List Char → List Char
  | [] => []
  | c :: rest => lowering c ++ snakeTail c rest

def underscored (c : Char) : Char :=
  if c = '-' then '_' else c

def snakeCase (s : String) : String :=
  String.ofList ((snakeChars s.toList).map underscored)

end RubyScaffold.Naming
