/-!
Text measured in the bytes of its UTF-8 form: sizes, places given as line and column, and byte
offsets. A line is a run of bytes that a line feed ends, and the last one may lack it.
-/

set_option autoImplicit false

namespace RubyScaffold.Text

def bytes (s : String) : List UInt8 :=
  s.toByteArray.data.toList

def byteLength : List Char → Nat
  | [] => 0
  | c :: cs => c.utf8Size + byteLength cs

def lineFeed : UInt8 := 10

/-- The number of the line, counted from one, that an offset stands on. -/
def lineAt (text : List UInt8) (offset : Nat) : Nat :=
  (text.take offset).count lineFeed + 1

/-- How many bytes stand between the start of the line of an offset and the offset. -/
def bytesIntoLine (text : List UInt8) (offset : Nat) : Nat :=
  ((text.take offset).reverse.takeWhile (· != lineFeed)).length

/-- The lines with their line feeds; no line is empty. -/
def wholeLines : List UInt8 → List (List UInt8)
  | [] => []
  | b :: rest =>
    if b = lineFeed then [b] :: wholeLines rest
    else match wholeLines rest with
      | [] => [[b]]
      | l :: ls => (b :: l) :: ls

/-- The offset of a column on one of the lines, counted from a start offset. A column past the
end of its line stands for that end. -/
def offsetInLines (column : Nat) : Nat → Nat → List (List UInt8) → Option Nat
  | _, _, [] => none
  | start, 0, l :: _ => some (start + min (column - 1) l.length)
  | start, line + 1, l :: ls => offsetInLines column (start + l.length) line ls

/-- The byte offset of a line and a column, both counted from one; none if there is no such line. -/
def offsetOf (text : List UInt8) (line column : Nat) : Option Nat :=
  match line with
  | 0 => none
  | line + 1 => offsetInLines column 0 line (wholeLines text)

end RubyScaffold.Text
