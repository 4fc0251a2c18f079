/-!
The reserved words of Ruby.
-/

set_option autoImplicit false

namespace RubyScaffold.Naming

/-- The reserved words, in code point order. -/
def keywords : List String := [
  "BEGIN", "END", "__ENCODING__", "__FILE__", "__LINE__", "alias", "and", "begin", "break",
  "case", "class", "def", "defined?", "do", "else", "elsif", "end", "ensure", "false", "for",
  "if", "in", "module", "next", "nil", "not", "or", "redo", "rescue", "retry", "return", "self",
  "super", "then", "true", "undef", "unless", "until", "when", "while", "yield"]

def isKeyword (name : String) : Bool :=
  keywords.contains name

end RubyScaffold.Naming
