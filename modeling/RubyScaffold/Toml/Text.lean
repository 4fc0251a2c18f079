import RubyScaffold.Toml.Fault

/-!
Quoted text in TOML: basic and literal, on one line or on several. In basic text a backslash
escapes; on several lines the first line break is dropped, and a backslash at the end of a line
takes the blanks that follow with it.
-/

set_option autoImplicit false

namespace RubyScaffold.Toml

open Text (Cursor)

def isGap (c : Char) : Bool := c = ' ' || c = '\t'

/-- Control characters other than the tab may stand nowhere. -/
def isControl (c : Char) : Bool :=
  (decide (c.toNat < 0x20) && c ≠ '\t') || c.toNat == 0x7f

def lineBreak? (c : Cursor) : Option Cursor :=
  match c.rest with
  | '\n' :: _ => some (c.advance 1)
  | '\r' :: '\n' :: _ => some (c.advance 2)
  | _ => none

def hexValue? (c : Char) : Option Nat :=
  if c.isDigit then some (c.toNat - '0'.toNat)
  else if 'a' ≤ c ∧ c ≤ 'f' then some (c.toNat - 'a'.toNat + 10)
  else if 'A' ≤ c ∧ c ≤ 'F' then some (c.toNat - 'A'.toNat + 10)
  else none

def numberedChar (digits : Nat) (c : Cursor) : Except Fault (Char × Cursor) :=
  let found := c.rest.take digits
  if found.length < digits then refuse c .badNumberedChar
  else do
    let values ← need c .badNumberedChar (found.mapM hexValue?)
    let n := values.foldl (fun n d => n * 16 + d) 0
    if n < 0xd800 ∨ (0xdfff < n ∧ n < 0x110000) then .ok (Char.ofNat n, c.advance digits)
    else refuse c .badNumberedChar

def escape (c : Cursor) : Except Fault (Char × Cursor) := do
  let (x, after) ← need c .badEscape c.next?
  match x with
  | 'b' => .ok ('\x08', after)
  | 't' => .ok ('\t', after)
  | 'n' => .ok ('\n', after)
  | 'f' => .ok ('\x0c', after)
  | 'r' => .ok ('\r', after)
  | 'e' => .ok ('\x1b', after)
  | '"' => .ok ('"', after)
  | '\\' => .ok ('\\', after)
  | 'x' => numberedChar 2 after
  | 'u' => numberedChar 4 after
  | 'U' => numberedChar 8 after
  | _ => refuse c .badEscape

/-- The cursor behind the blanks and line breaks that a line-ending backslash takes with it; a
line break must be among them. -/
def joinedLine? (c : Cursor) : Option Cursor := do
  let c ← lineBreak? (c.skip isGap)
  let blanks := c.rest.takeWhile fun x => isGap x || x = '\n' || x = '\r'
  -- a carriage return belongs to a line break or is left for the text to refuse
  let kept := if blanks.getLast? = some '\r' then blanks.dropLast else blanks
  some (c.advance kept.length)

def oneLine (quote : Char) : Nat → List Char → Cursor → Except Fault (List Char × Cursor)
  | 0, _, c => refuse c .openText
  | fuel + 1, found, c => do
    let (x, after) ← need c .openText c.next?
    if x = quote then .ok (found.reverse, after)
    else if x = '\\' ∧ quote = '"' then
      let (y, after) ← escape after
      oneLine quote fuel (y :: found) after
    else if isControl x then refuse c .controlCharacter
    else oneLine quote fuel (x :: found) after

def quoteRun (quote : Char) (c : Cursor) : Nat :=
  ((c.rest.take 5).takeWhile (· = quote)).length

/-- A text on several lines up to its three closing quotes; up to two quotes before them belong to
the text. -/
def manyLines (quote : Char) : Nat → List Char → Cursor → Except Fault (List Char × Cursor)
  | 0, _, c => refuse c .openText
  | fuel + 1, found, c => do
    let (x, after) ← need c .openText c.next?
    if x = quote then
      let run := quoteRun quote c
      if 3 ≤ run then .ok (found.reverse ++ List.replicate (run - 3) quote, c.advance run)
      else manyLines quote fuel (x :: found) after
    else if x = '\\' ∧ quote = '"' then
      match joinedLine? after with
      | some after => manyLines quote fuel found after
      | none =>
        let (y, after) ← escape after
        manyLines quote fuel (y :: found) after
    else if x = '\n' then manyLines quote fuel (x :: found) after
    else if x = '\r' then
      match after.rest with
      | '\n' :: _ => manyLines quote fuel ('\n' :: x :: found) (after.advance 1)
      | _ => refuse c .controlCharacter
    else if isControl x then refuse c .controlCharacter
    else manyLines quote fuel (x :: found) after

def openedLine (c : Cursor) : Cursor :=
  (lineBreak? c).getD c

def quotedWith (quote : Char) (c : Cursor) : Except Fault (String × Cursor) := do
  let fuel := c.rest.length + 1
  let (cs, c) ←
    if [quote, quote, quote].isPrefixOf c.rest then
      manyLines quote fuel [] (openedLine (c.advance 3))
    else oneLine quote fuel [] (c.advance 1)
  .ok (String.ofList cs, c)

end RubyScaffold.Toml
