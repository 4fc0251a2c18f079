import RubyScaffold.Class.Outline
import RubyScaffold.Code.Statement
import RubyScaffold.Settings

/-!
What stands above the class in a file: the magic comments, sorted by key, and the files to load.
-/

set_option autoImplicit false

namespace RubyScaffold.Code

open Layout

/-- The comments with one written into the order of their keys; a present key is replaced. -/
def putSorted (c : MagicComment) : List MagicComment → List MagicComment
  | [] => [c]
  | d :: rest =>
    if c.key = d.key then c :: rest
    else if c.key < d.key then c :: d :: rest
    else d :: putSorted c rest

structure Preamble where
  comments : List MagicComment
  requires : List Require

namespace Preamble

/-- The comments of a class: its directives, and over them the one that the settings ask for. -/
def commentsFor (c : ClassOutline String) (settings : Settings) : List MagicComment :=
  let declared := c.directives.entries.foldl (fun out d => putSorted ⟨d.1, d.2⟩ out) []
  if settings.frozenStringLiteral then putSorted .frozen declared else declared

def ofClass (c : ClassOutline String) (settings : Settings) : Preamble where
  comments := commentsFor c settings
  requires := c.requires.map (⟨·, false⟩) ++ c.relativeRequires.map (⟨·, true⟩)

def isEmpty (p : Preamble) : Bool :=
  p.comments.isEmpty && p.requires.isEmpty

/-- A group of fragments with an empty line after it, and nothing for an empty group. -/
def closedGroup (group : List Fragment) : List Fragment :=
  if group.isEmpty then [] else group ++ [.blank]

def fragments (p : Preamble) : List Fragment :=
  closedGroup (p.comments.flatMap MagicComment.fragments) ++
    closedGroup (p.requires.flatMap Require.fragments)

end Preamble

end RubyScaffold.Code
