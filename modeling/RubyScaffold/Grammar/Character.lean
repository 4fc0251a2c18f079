/-!
The kinds of characters that tokens are told apart by. Characters beyond ASCII are all letters.
-/

set_option autoImplicit false

namespace RubyScaffold.Grammar

/-- Whether a character parts tokens within a line. A carriage return that ends no line does. -/
def isInlineBlank (c : Char) : Bool :=
  c == ' ' || c == '\t' || c == '\x0b' || c == '\x0c' || c == '\r'

def isGap (c : Char) : Bool :=
  isInlineBlank c || c == '\n'

def endsDocument (c : Char) : Bool :=
  c == '\x00' || c == '\x04' || c == '\x1a'

def isNameChar (c : Char) : Bool :=
  c.isAlphanum || c == '_' || 128 ≤ c.toNat

def beginsName (c : Char) : Bool :=
  isNameChar c && !c.isDigit

def isHexDigit (c : Char) : Bool :=
  c.isDigit || ('a' ≤ c && c ≤ 'f') || ('A' ≤ c && c ≤ 'F')

def isOctalDigit (c : Char) : Bool :=
  '0' ≤ c && c ≤ '7'

end RubyScaffold.Grammar
