import RubyScaffold.Json.Cursor

/-!
Quoted text in JSON: characters stand for themselves, but quotes, backslashes and control
characters are escaped. A character past the sixteen-bit range may be written as two escapes.
-/

set_option autoImplicit false

namespace RubyScaffold.Json

open Text (Cursor)

def hexDigit? (c : Char) : Option Nat :=
  if c.isDigit then some (c.toNat - '0'.toNat)
  else if 'a' ≤ c ∧ c ≤ 'f' then some (c.toNat - 'a'.toNat + 10)
  else if 'A' ≤ c ∧ c ≤ 'F' then some (c.toNat - 'A'.toNat + 10)
  else none

/-- Four hexadecimal digits. Four bytes are taken before they are looked at. -/
def fourHex (c : Cursor) : Except Fault (Nat × Cursor) :=
  if c.stop < c.index + 4 then .error ⟨.endInText, c.stop⟩
  else match (c.rest.take 4).mapM hexDigit? with
    | some [a, b, d, e] => .ok (((a * 16 + b) * 16 + d) * 16 + e, c.advance 4)
    | _ => .error ⟨.badEscape, c.index + 4⟩

def pairMark (mark : Char) (c : Cursor) : Except Fault Cursor :=
  match c.next? with
  | none => faultHere c .endInText
  | some (x, c') => if x = mark then .ok c' else .error ⟨.noSecondSurrogate, c.index + 1⟩

/-- The character that an escape with four digits stands for, with a second escape if the first is
half of a pair. -/
def unicodeEscape (c : Cursor) : Except Fault (Char × Cursor) := do
  let (n, c) ← fourHex c
  if 0xdc00 ≤ n ∧ n ≤ 0xdfff then faultHere c .loneSurrogate
  else if n < 0xd800 ∨ 0xdbff < n then .ok (Char.ofNat n, c)
  else
    let c ← pairMark '\\' c
    let c ← pairMark 'u' c
    let (m, c) ← fourHex c
    if m < 0xdc00 ∨ 0xdfff < m then faultHere c .loneSurrogate
    else .ok (Char.ofNat ((n - 0xd800) * 0x400 + (m - 0xdc00) + 0x10000), c)

def shortEscape? : Char → Option Char
  | '"' => some '"'
  | '\\' => some '\\'
  | '/' => some '/'
  | 'b' => some '\x08'
  | 'f' => some '\x0c'
  | 'n' => some '\n'
  | 'r' => some '\r'
  | 't' => some '\t'
  | _ => none

def escape (c : Cursor) : Except Fault (Char × Cursor) :=
  match c.next? with
  | none => faultHere c .endInText
  | some (x, c') =>
    if x = 'u' then unicodeEscape c'
    else match shortEscape? x with
      | some y => .ok (y, c')
      | none => .error ⟨.badEscape, c.index + 1⟩

def quotedFrom : Nat → List Char → Cursor → Except Fault (List Char × Cursor)
  | 0, _, c => faultHere c .endInText
  | fuel + 1, found, c => match c.next? with
    | none => faultHere c .endInText
    | some (x, c') =>
      if x = '"' then .ok (found.reverse, c')
      else if x = '\\' then do
        let (y, c') ← escape c'
        quotedFrom fuel (y :: found) c'
      else if x.toNat < 0x20 then faultHere c' .controlCharacter
      else quotedFrom fuel (x :: found) c'

def quoted (c : Cursor) : Except Fault (String × Cursor) := do
  let (cs, c) ← quotedFrom (c.rest.length + 1) [] c
  .ok (String.ofList cs, c)

def skipEscape (c : Cursor) : Except Fault Cursor :=
  match c.next? with
  | none => faultHere c .endInText
  | some (x, c') =>
    if x = 'u' then (fourHex c').map Prod.snd
    else match shortEscape? x with
      | some _ => .ok c'
      | none => .error ⟨.badEscape, c.index + 1⟩

def skipQuoted : Nat → Cursor → Except Fault Cursor
  | 0, c => faultHere c .endInText
  | fuel + 1, c => match c.next? with
    | none => faultHere c .endInText
    | some (x, c') =>
      if x = '"' then .ok c'
      else if x = '\\' then skipEscape c' >>= skipQuoted fuel
      else if x.toNat < 0x20 then faultHere c .controlCharacter
      else skipQuoted fuel c'

end RubyScaffold.Json
