import RubyScaffold.Text.Cursor

/-!
What can be wrong with TOML text, and where it is told.
-/

set_option autoImplicit false

namespace RubyScaffold.Toml

open Text (Cursor)

structure Span where
  offset : Nat
  length : Nat
  deriving DecidableEq, Repr

inductive Flaw where
  | badKey
  | duplicateKey
  | notExtensible
  | noAssignment
  | badValue
  | numberTooLarge
  | openText
  | badEscape
  | badNumberedChar
  | controlCharacter
  | openList
  | openTable
  | openHeader
  | noLineEnd
  | tooDeep
  deriving DecidableEq, Repr

def Flaw.message : Flaw → String
  | .badKey => "invalid unquoted key, expected letters, numbers, `-`, `_`"
  | .duplicateKey => "duplicate key"
  | .notExtensible => "cannot extend value with a dotted key"
  | .noAssignment => "key with no value, expected `=`"
  | .badValue => "string values must be quoted, expected literal string"
  | .numberTooLarge => "number overflowed"
  | .openText => "unclosed string, expected its closing quotes"
  | .badEscape =>
    "missing escaped value, expected `b`, `e`, `f`, `n`, `r`, `\\`, `\"`, `x`, `u`, `U`"
  | .badNumberedChar => "invalid escaped value, expected the number of a Unicode character"
  | .controlCharacter => "invalid character, expected printable characters"
  | .openList => "unclosed array, expected `]`"
  | .openTable => "unclosed inline table, expected `\x7d`"
  | .openHeader => "unclosed table, expected `]`"
  | .noLineEnd => "unexpected key or value, expected newline, `#`"
  | .tooDeep => "cannot recurse further; max recursion depth met"

structure Fault where
  flaw : Flaw
  span : Span
  deriving DecidableEq, Repr

def refuse {α : Type} (c : Cursor) (flaw : Flaw) : Except Fault α :=
  .error ⟨flaw, ⟨c.index, 0⟩⟩

/-- What was found at a cursor; a flaw of the text if nothing was. -/
def need {α : Type} (c : Cursor) (flaw : Flaw) : Option α → Except Fault α
  | none => refuse c flaw
  | some a => .ok a

end RubyScaffold.Toml
