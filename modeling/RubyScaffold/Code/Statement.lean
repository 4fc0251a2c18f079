import RubyScaffold.Layout.Fragment

/-!
The statements that generated classes are made of, and the fragments that each is written as.
-/

set_option autoImplicit false

namespace RubyScaffold.Code

open Layout

structure MagicComment where
  key : String
  value : String
  deriving DecidableEq, Repr

namespace MagicComment

def frozenKey : String := "frozen_string_literal"

def frozen : MagicComment := ⟨frozenKey, "true"⟩

def fragments (c : MagicComment) : List Fragment :=
  [.comment (c.key ++ ": " ++ c.value)]

end MagicComment

structure Require where
  path : String
  relative : Bool

/-- The statement as a line. The path stands between quotes as it is. -/
def Require.fragments (r : Require) : List Fragment :=
  [.line ((if r.relative then "require_relative" else "require") ++ " \"" ++ r.path ++ "\"")]

structure Include where
  name : String

def Include.fragments (i : Include) : List Fragment :=
  [.line ("include " ++ i.name)]

structure AttrReader where
  names : List String

def AttrReader.fragments (r : AttrReader) : List Fragment :=
  [.line ("attr_reader " ++ String.intercalate ", " (r.names.map (":" ++ ·)))]

structure Method where
  name : String
  params : List String := []
  body : List String := []

namespace Method

def signature (m : Method) : String :=
  if m.params.isEmpty then "def " ++ m.name
  else "def " ++ m.name ++ "(" ++ String.intercalate ", " m.params ++ ")"

def fragments (m : Method) : List Fragment :=
  [.block m.signature (m.body.map .line) (some "end")]

end Method

end RubyScaffold.Code
