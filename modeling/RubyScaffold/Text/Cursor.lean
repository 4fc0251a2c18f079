import RubyScaffold.Text.Bytes

/-!
Walking over a text. A cursor is what is left of the text and how many bytes have been read.
-/

set_option autoImplicit false

namespace RubyScaffold.Text

/-- What is left of a text and the number of bytes read. -/
structure Cursor where
  rest : List Char
  index : Nat

namespace Cursor

def start (text : List Char) : Cursor := ⟨text, 0⟩

def next? (c : Cursor) : Option (Char × Cursor) :=
  match c.rest with
  | [] => none
  | x :: rest => some (x, ⟨rest, c.index + x.utf8Size⟩)

def advance (c : Cursor) (n : Nat) : Cursor :=
  ⟨c.rest.drop n, c.index + byteLength (c.rest.take n)⟩

def span (c : Cursor) (kind : Char → Bool) : List Char × Cursor :=
  let found := c.rest.takeWhile kind
  (found, ⟨c.rest.dropWhile kind, c.index + byteLength found⟩)

def skip (c : Cursor) (kind : Char → Bool) : Cursor :=
  (c.span kind).2

def stop (c : Cursor) : Nat :=
  c.index + byteLength c.rest

def atEnd (c : Cursor) : Bool :=
  c.rest.isEmpty

end Cursor

end RubyScaffold.Text
