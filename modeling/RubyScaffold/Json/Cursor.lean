import RubyScaffold.Text.Cursor

/-!
The flaws of JSON text and where they are noticed, and the smallest steps over JSON text.
-/

set_option autoImplicit false

namespace RubyScaffold.Json

open Text (Cursor)

inductive Flaw where
  | endInValue
  | endInText
  | endInList
  | endInObject
  | noColon
  | noListEnd
  | noObjectEnd
  | badWord
  | noValue
  | badEscape
  | badNumber
  | numberTooLarge
  | controlCharacter
  | keyNotText
  | loneSurrogate
  | noSecondSurrogate
  | trailingComma
  | trailingCharacters
  | tooDeep
  deriving DecidableEq, Repr

def Flaw.message : Flaw → String
  | .endInValue => "EOF while parsing a value"
  | .endInText => "EOF while parsing a string"
  | .endInList => "EOF while parsing a list"
  | .endInObject => "EOF while parsing an object"
  | .noColon => "expected `:`"
  | .noListEnd => "expected `,` or `]`"
  | .noObjectEnd => "expected `,` or `\x7d`"
  | .badWord => "expected ident"
  | .noValue => "expected value"
  | .badEscape => "invalid escape"
  | .badNumber => "invalid number"
  | .numberTooLarge => "number out of range"
  | .controlCharacter =>
    "control character (\\u0000-\\u001F) found while parsing a string"
  | .keyNotText => "key must be a string"
  | .loneSurrogate => "lone leading surrogate in hex escape"
  | .noSecondSurrogate => "unexpected end of hex escape"
  | .trailingComma => "trailing comma"
  | .trailingCharacters => "trailing characters"
  | .tooDeep => "recursion limit exceeded"

/-- A flaw and the number of bytes read when it was noticed. -/
structure Fault where
  flaw : Flaw
  index : Nat
  deriving DecidableEq, Repr

/-- A fault noticed when all bytes before the cursor have been read. -/
def faultHere {α : Type} (c : Cursor) (flaw : Flaw) : Except Fault α :=
  .error ⟨flaw, c.index⟩

/-- A fault noticed at the byte under the cursor, or at the end of the text. -/
def faultAt (c : Cursor) (flaw : Flaw) : Fault :=
  ⟨flaw, match c.rest with | [] => c.index | _ :: _ => c.index + 1⟩

def isSpace (c : Char) : Bool :=
  c = ' ' || c = '\n' || c = '\t' || c = '\r'

def skipSpace (c : Cursor) : Cursor := c.skip isSpace

/-- The index behind the white space and behind a closing brace, if one follows. -/
def settledIndex (c : Cursor) : Nat :=
  let s := skipSpace c
  if s.rest.head? = some '}' then s.index + 1 else s.index

def word : List Char → Cursor → Except Fault Cursor
  | [], c => .ok c
  | w :: ws, c => match c.next? with
    | none => faultHere c .endInValue
    | some (x, c') => if x = w then word ws c' else .error ⟨.badWord, c.index + 1⟩

end RubyScaffold.Json
