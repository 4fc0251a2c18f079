import RubyScaffold.Class.Fault
import RubyScaffold.Code.Statement
import RubyScaffold.Text.Pieces

/-!
The class itself, from its header to its end. Its sections stand in a fixed order with an empty
line between them: what it includes, the contents given as they are, the constructor, the methods
and the private readers.
-/

set_option autoImplicit false

namespace RubyScaffold.Code

open Layout

variable {δ : Type}

def classHeader (c : ClassOutline δ) : String :=
  match c.parent with
  | some parent => "class " ++ c.name ++ " < " ++ parent
  | none => "class " ++ c.name

def includeSection (c : ClassOutline δ) : List Fragment :=
  c.includes.flatMap fun name => (Include.mk name).fragments

def topSection (c : ClassOutline δ) : List Fragment :=
  (c.topContents.flatMap Text.lines).map .line

/-- The constructor that sets every instance variable from a keyword of its name. -/
def constructor (names : List String) : Method where
  name := constructorName
  params := names.map (· ++ ":")
  body := names.map fun name => "@" ++ name ++ " = " ++ name

def constructorSection (c : ClassOutline δ) : List Fragment :=
  if c.fields.isEmpty then [] else (constructor c.fieldNames).fragments

/-- The declared methods, each without a body. -/
def methodSection (c : ClassOutline δ) : List Fragment :=
  separated (c.methods.entries.map fun m =>
    Method.fragments { name := m.1, params := m.2.getD [] })

def readerSection (c : ClassOutline δ) : List Fragment :=
  if c.fields.isEmpty then []
  else [.line "private", .blank] ++ (AttrReader.mk c.fieldNames).fragments

def classFragments (c : ClassOutline δ) : List Fragment :=
  [.block (classHeader c)
    (separated [includeSection c, topSection c, constructorSection c, methodSection c,
      readerSection c])
    (some "end")]

end RubyScaffold.Code
