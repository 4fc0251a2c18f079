import RubyScaffold.Grammar.Scan

/-!
The rules of the grammar and what they answer with. A rule is named, so that a module can call on
rules that are defined in other modules; the steps that all of them share are here.
-/

set_option autoImplicit false

namespace RubyScaffold.Grammar

/-- How much may be read where a value is due: a whole statement, what is assigned in one, an
expression whose call may go without parentheses, or an argument. -/
inductive Reach where
  | statement | assigned | expression | argument
  deriving DecidableEq, Repr

/-- The named rules. Where targets are grouped, a list of them in parentheses will do. -/
inductive Rule where
  | statements
  | statement (grouped : Bool)
  | expression (reach : Reach) (grouped : Bool)
  | operation (level : Nat) (reach : Reach) (grouped : Bool)
  | primary (grouped : Bool)
  | literal
  | pattern
  deriving DecidableEq, Repr

/-- What has been read, as far as what may follow depends on it. -/
inductive Shape where
  | name (text : String)
  | predicate
  | constant
  | constantPath
  | variable
  | fixedName
  | matchReference
  | element
  | member (assignable ofScope : Bool)
  | yielded
  | call (blockArgument : Bool)
  | targets
  | jump
  | command
  | label
  | other
  deriving DecidableEq, Repr

structure Form where
  shape : Shape
  line : Nat
  deriving Repr

abbrev Rules := Rule → Parse Form

namespace Shape

/-- Whether the shape may be assigned to, or is refused by a rule of its own. -/
def isTarget : Shape → Bool
  | .name _ | .constant | .constantPath | .variable | .fixedName | .matchReference
  | .element | .targets => true
  | .member assignable _ => assignable
  | _ => false

def takesArgument : Shape → Bool
  | .name _ | .predicate | .constant | .constantPath | .member _ _ | .yielded | .jump => true
  | _ => false

def takesBlock : Shape → Bool
  | .name _ | .predicate | .constant | .member _ _ | .call _ | .element => true
  | _ => false

def isCommand (s : Shape) : Bool :=
  s == .command

end Shape

/-- The next token, which stays in front. -/
def peek : Parse Lexeme := do
  match (← get).peeked with
  | some lexeme => return lexeme
  | none =>
    let lexeme ← scan
    modify fun s => { s with peeked := some lexeme }
    return lexeme

def advance : Parse Lexeme := do
  let lexeme ← peek
  modify fun s => { s with peeked := none }
  return lexeme

def unexpected {α : Type} : Parse α := do
  throw (← peek).line

def nextIs (t : Token) : Parse Bool := do
  return (← peek).token == t

def accept (t : Token) : Parse Bool := do
  if ← nextIs t then
    discard advance
    return true
  else return false

def expect (t : Token) : Parse Unit := do
  if !(← accept t) then unexpected

def acceptLineEnd : Parse Unit :=
  discard (accept .lineEnd)

def acceptTerminator : Parse Bool := do
  if ← accept .lineEnd then return true else accept (.sign ";")

def expectTerminator : Parse Unit := do
  if !(← acceptTerminator) then unexpected

def setMode (m : Mode) : Parse Unit :=
  modify (State.setMode m)

def beginStatement : Parse Unit :=
  modify fun s => { s with mode := .value, statementStart := true }

def beginsArgument : Token → Bool
  | .name _ | .predicate _ | .constant _ | .label _ | .instanceVariable | .classVariable
  | .globalVariable | .matchReference | .number | .character | .symbolMark | .quote _
  | .heredoc _ | .leading _ | .argumentParen | .hashBrace | .lambdaArrow => true
  | .sign text => text == "!" || text == "~"
  | .word text =>
    ["__ENCODING__", "__FILE__", "__LINE__", "begin", "break", "case", "class", "def",
      "defined?", "false", "for", "if", "module", "next", "nil", "not", "redo", "retry",
      "return", "self", "super", "true", "unless", "until", "while", "yield"].contains text
  | _ => false

def endsStatements : Token → Bool
  | .endOfText | .closeBrace => true
  | .sign text => text == ")"
  | .word text =>
    ["else", "elsif", "end", "ensure", "in", "rescue", "when"].contains text
  | _ => false

/-- Whether a name is kept for the numbered parameters of a block. -/
def isNumbered (name : String) : Bool :=
  match name.toList with
  | ['_', c] => c.isDigit && c != '0'
  | _ => false

/-- Refuses what leaves its place and so has no value. -/
def needValue (f : Form) : Parse Form := do
  if f.shape == .jump then failAt f.line else return f

def expressionValue (rules : Rules) : Parse Unit := do
  discard (needValue (← rules (.expression .expression false)))

def argumentValue (rules : Rules) : Parse Unit := do
  discard (needValue (← rules (.operation 0 .argument false)))

/-- Accepts a form as one that is assigned to. A constant cannot be assigned to in a method. -/
def assignTo (f : Form) : Parse Unit := do
  match f.shape with
  | .name text => if isNumbered text then failAt f.line else declare text
  | .constant | .constantPath => if (← get).surroundings.inMethod then failAt f.line
  | .variable | .element | .targets => pure ()
  | .member assignable _ => if !assignable then unexpected
  | .fixedName | .matchReference => failAt f.line
  | _ => unexpected

def target (rules : Rules) : Parse Unit := do
  assignTo (← rules (.primary true))

def starredTarget (rules : Rules) : Parse Unit := do
  let t := (← peek).token
  if beginsArgument t then target rules

/-- Reads the targets behind a comma, up to a sign that cannot begin one. -/
def moreTargets (rules : Rules) : Parse Unit :=
  repeatWhile do
    if ← accept (.leading "*") then starredTarget rules
    else if beginsArgument (← peek).token then target rules
    else return false
    accept (.sign ",")

end RubyScaffold.Grammar
