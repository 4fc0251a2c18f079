/-!
What the text read so far makes of the next token. A mode decides whether a line end ends a
statement, whether a sign stands in front of a value, and whether a name is a label.
-/

set_option autoImplicit false

namespace RubyScaffold.Grammar

/-- What comes next: a value, perhaps one after `return` and its like, perhaps an argument of the
name just read, an operator, or a name of some kind. -/
inductive Expectation where
  | value | middle | argument | commandArgument | operator | afterParen | afterArgument
  | className | methodName | memberName
  deriving DecidableEq, Repr

/-- An expectation, whether a label may come, whether a label has just been read, and whether the
name to come is one item of a list. -/
structure Mode where
  expects : Expectation
  label : Bool
  labelled : Bool
  item : Bool
  deriving DecidableEq, Repr

namespace Mode

def plain (e : Expectation) : Mode := ⟨e, false, false, false⟩

def value : Mode := plain .value

def valueOrLabel : Mode := ⟨.value, true, false, false⟩

def operator : Mode := plain .operator

def operatorOrLabel : Mode := ⟨.operator, true, false, false⟩

def behindLabel : Mode := ⟨.argument, false, true, false⟩

def methodItem : Mode := ⟨.methodName, false, false, true⟩

def beginsValue (m : Mode) : Bool :=
  match m.expects with
  | .value | .middle | .className => true
  | .argument => m.labelled
  | _ => false

def mayTakeArgument (m : Mode) : Bool :=
  m.expects == .argument || m.expects == .commandArgument

def ended (m : Mode) : Bool :=
  m.expects == .operator || m.expects == .afterParen || m.expects == .afterArgument

def namesMethod (m : Mode) : Bool :=
  m.expects == .methodName || m.expects == .memberName

def behindSign (m : Mode) : Mode :=
  if m.namesMethod then plain .argument else value

/-- Whether a name in front of a colon is a label. A statement does not begin with one. -/
def allowsLabel (m : Mode) (statementStart : Bool) : Bool :=
  ((m.label || m.expects == .afterParen) && !statementStart) || m.mayTakeArgument

/-- Whether a sign opens a value, being parted from the name in front of it by a blank and from
what follows by none. -/
def opensArgument (m : Mode) (blankBefore blankAfter : Bool) : Bool :=
  m.mayTakeArgument && blankBefore && !blankAfter

/-- Whether a line end means nothing, because what has been read cannot end a statement. Behind
a label it does, where labels are listed without parentheses. -/
def skipsLineEnd (m : Mode) (inLabelList : Bool) : Bool :=
  match m.expects with
  | .value | .className | .methodName | .memberName => true
  | .argument => m.labelled && !inLabelList
  | _ => false

def behindWord (word : String) : Mode :=
  if ["alias", "undef"].contains word then methodItem
  else if word == "def" then plain .methodName
  else if word == "class" then plain .className
  else if ["break", "next", "return", "rescue"].contains word then plain .middle
  else if ["defined?", "not", "super", "yield"].contains word then plain .argument
  else if ["__ENCODING__", "__FILE__", "__LINE__", "BEGIN", "END", "end", "false", "nil", "redo",
    "retry", "self", "true"].contains word then operator
  else value

end Mode

/-- The reserved words that mean something else behind a finished statement. -/
def modifierWords : List String := ["if", "rescue", "unless", "until", "while"]

end RubyScaffold.Grammar
