import RubyScaffold.Layout.Fragment
import RubyScaffold.Unicode.Blank

/-!
Code laid out on a page: each line behind two spaces for every block around it. A line of blanks
alone becomes an empty line.
-/

set_option autoImplicit false

namespace RubyScaffold.Layout

/-- The text written so far and how many blocks are open. -/
structure Page where
  text : String := ""
  level : Nat := 0
  deriving Inhabited

def indentation (level : Nat) : String :=
  String.ofList (List.replicate (2 * level) ' ')

namespace Page

def addBlank (p : Page) : Page :=
  { p with text := p.text ++ "\n" }

def addLine (p : Page) (line : String) : Page :=
  if Unicode.isBlankText line then p.addBlank
  else { p with text := p.text ++ indentation p.level ++ line ++ "\n" }

def indent (p : Page) : Page :=
  { p with level := p.level + 1 }

def dedent (p : Page) : Page :=
  { p with level := p.level - 1 }

mutual

def add (p : Page) : Fragment → Page
  | .line text => p.addLine text
  | .blank => p.addBlank
  | .comment text => p.addLine ("# " ++ text)
  | .block header body close =>
    let closed := ((p.addLine header).indent.addAll body).dedent
    match close with
    | some line => closed.addLine line
    | none => closed

def addAll (p : Page) : List Fragment → Page
  | [] => p
  | f :: fs => (p.add f).addAll fs

end

end Page

def print (fragments : List Fragment) : String :=
  (Page.addAll {} fragments).text

end RubyScaffold.Layout
