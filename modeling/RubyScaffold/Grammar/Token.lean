/-!
The words and signs of a Ruby document. A sign that means one thing between two values and
another in front of a value has two tokens, so that the grammar never looks at blanks.
-/

set_option autoImplicit false

namespace RubyScaffold.Grammar

inductive Content where
  | text | symbol | shell | pattern | wordList
  deriving DecidableEq, Repr

/-- A quoted literal: what it holds, the sign that closes it, the sign that opens a nested pair,
whether code in it is run, and whether it may turn out to be a label. -/
structure Quote where
  content : Content
  closer : Char
  opener : Option Char
  interpolates : Bool
  mayBeLabel : Bool
  deriving DecidableEq, Repr

structure Heredoc where
  name : List Char
  indented : Bool
  interpolates : Bool
  deriving DecidableEq, Repr

inductive DoOwner where
  | call | command | loop | lambda
  deriving DecidableEq, Repr

/-- The words and signs. A sign is `leading` when it stands in front of a value, and an argument's
parenthesis or brace is one that a blank parts from the name in front of it. -/
inductive Token where
  | endOfText
  | lineEnd
  | name (text : String)
  | predicate (text : String)
  | constant (text : String)
  | label (text : String)
  | word (text : String)
  | modifier (text : String)
  | doWord (owner : DoOwner)
  | instanceVariable
  | classVariable
  | globalVariable
  | matchReference
  | number
  | character
  | symbolMark
  | quote (q : Quote)
  | heredoc (h : Heredoc)
  | sign (text : String)
  | leading (text : String)
  | assignment
  | argumentParen
  | blockBrace
  | hashBrace
  | argumentBrace
  | lambdaBrace
  | closeBrace
  | lambdaArrow
  deriving DecidableEq, Repr

structure Lexeme where
  token : Token
  line : Nat
  deriving Repr

end RubyScaffold.Grammar
