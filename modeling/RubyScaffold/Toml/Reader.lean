import RubyScaffold.Toml.Scalar
import RubyScaffold.Toml.Table
import RubyScaffold.Toml.Text

/-!
Reading TOML text, version 1.1, as a tree. A text that is not TOML has no tree but a fault.
-/

set_option autoImplicit false

namespace RubyScaffold.Toml

open Text (Cursor)

def spanTo (c after : Cursor) : Span := ⟨c.index, after.index - c.index⟩

def skipComment (c : Cursor) : Except Fault Cursor :=
  match c.rest with
  | '#' :: _ =>
    let body (x : Char) : Bool := x ≠ '\n' && x ≠ '\r'
    let (found, after) := c.span body
    if found.any isControl then refuse c .controlCharacter
    else match after.rest with
      | '\r' :: '\n' :: _ => .ok after
      | '\r' :: _ => refuse after .controlCharacter
      | _ => .ok after
  | _ => .ok c

def skipLines : Nat → Cursor → Except Fault Cursor
  | 0, c => .ok c
  | fuel + 1, c => do
    let c ← skipComment (c.skip isGap)
    match lineBreak? c with
    | some c => skipLines fuel c
    | none => .ok c

def skipGaps (c : Cursor) : Except Fault Cursor := skipLines (c.rest.length + 1) c

def isBareKey (c : Char) : Bool :=
  c.isAlphanum || c = '_' || c = '-'

def simpleKey (c : Cursor) : Except Fault (Key × Cursor) :=
  let named (name : String) (after : Cursor) : Key × Cursor := (⟨name, spanTo c after⟩, after)
  match c.rest with
  | '"' :: _ => do
    let (cs, after) ← oneLine '"' (c.rest.length + 1) [] (c.advance 1)
    .ok (named (String.ofList cs) after)
  | '\'' :: _ => do
    let (cs, after) ← oneLine '\'' (c.rest.length + 1) [] (c.advance 1)
    .ok (named (String.ofList cs) after)
  | _ =>
    let (cs, after) := c.span isBareKey
    if cs.isEmpty then refuse c .badKey else .ok (named (String.ofList cs) after)

def dottedKeys : Nat → Cursor → Except Fault (List Key × Cursor)
  | 0, c => refuse c .badKey
  | fuel + 1, c => do
    let (key, after) ← simpleKey (c.skip isGap)
    let after := after.skip isGap
    match after.rest with
    | '.' :: _ =>
      let (keys, after) ← dottedKeys fuel (after.advance 1)
      .ok (key :: keys, after)
    | _ => .ok ([key], after)

/-- How deep lists and inline tables may be nested, and how many keys a dotted key may hold. -/
def maxDepth : Nat := 80

/-- A dotted key: the keys before its last one, and the last one. -/
def dottedKey (c : Cursor) : Except Fault ((List Key × Key) × Cursor) := do
  let (keys, after) ← dottedKeys (c.rest.length + 1) c
  let last ← need c .badKey keys.getLast?
  if maxDepth < keys.length then refuse c .tooDeep else .ok ((keys.dropLast, last), after)

def isScalarChar (c : Char) : Bool :=
  c.isAlphanum || c = '_' || c = '-' || c = '+' || c = '.' || c = ':'

/-- The key under which a date or time hides in a tree. -/
def momentKey : String := "$__toml_private_datetime"

def scalarTree (span : Span) : Scalar → TomlTree
  | .bool b => .bool span b
  | .integer i => .integer span i
  | .float x => .float span x
  | .moment t => .table span [(momentKey, span, .text span t)] none
  | .tooLarge => .unreadable span ⟨.numberTooLarge, span⟩

/-- An unquoted value. A date may have a blank between itself and its time. -/
def scalarValue (c : Cursor) : Except Fault (TomlTree × Cursor) := do
  let (cs, after) := c.span isScalarChar
  let longer : Option (TomlTree × Cursor) := match after.rest with
    | ' ' :: d :: _ =>
      if (date? cs).isSome ∧ d.isDigit then do
        let (time, after) := (after.advance 1).span isScalarChar
        let s ← scalar? (cs ++ ' ' :: time)
        some (scalarTree (spanTo c after) s, after)
      else none
    | _ => none
  match longer with
  | some r => .ok r
  | none => do
    let s ← need c .badValue (scalar? cs)
    .ok (scalarTree (spanTo c after) s, after)

mutual

def value : Nat → Nat → Cursor → Except Fault (TomlTree × Cursor)
  | 0, _, c => refuse c .tooDeep
  | fuel + 1, depth, c => match c.rest with
    | '"' :: _ => do
      let (s, after) ← quotedWith '"' c
      .ok (.text (spanTo c after) s, after)
    | '\'' :: _ => do
      let (s, after) ← quotedWith '\'' c
      .ok (.text (spanTo c after) s, after)
    | '[' :: _ =>
      if depth = 0 then refuse c .tooDeep
      else do
        let (items, after) ← items fuel (depth - 1) (c.advance 1)
        .ok (.list (spanTo c after) items none, after)
    | '{' :: _ =>
      if depth = 0 then refuse c .tooDeep
      else do
        let (entries, after) ← members fuel (depth - 1) [] (c.advance 1)
        .ok (.table (spanTo c after) (entryTrees entries) none, after)
    | _ => scalarValue c

/-- The items of a list up to its closing bracket; the last may have a comma. -/
def items : Nat → Nat → Cursor → Except Fault (List TomlTree × Cursor)
  | 0, _, c => refuse c .openList
  | fuel + 1, depth, c => do
    let c ← skipGaps c
    match c.rest with
    | ']' :: _ => .ok ([], c.advance 1)
    | _ =>
      let (item, c) ← value fuel depth c
      let c ← skipGaps c
      match c.rest with
      | ',' :: _ =>
        let (rest, c) ← items fuel depth (c.advance 1)
        .ok (item :: rest, c)
      | ']' :: _ => .ok ([item], c.advance 1)
      | _ => refuse c .openList

def members : Nat → Nat → Entries → Cursor → Except Fault (Entries × Cursor)
  | 0, _, _, c => refuse c .openTable
  | fuel + 1, depth, entries, c => do
    let c ← skipGaps c
    match c.rest with
    | '}' :: _ => .ok (entries, c.advance 1)
    | _ =>
      let ((path, key), c) ← dottedKey c
      match c.rest with
      | '=' :: _ =>
        let (item, c) ← value fuel depth ((c.advance 1).skip isGap)
        let entries ← addValue entries path key (.value item)
        let c ← skipGaps c
        match c.rest with
        | ',' :: _ => members fuel depth entries (c.advance 1)
        | '}' :: _ => .ok (entries, c.advance 1)
        | _ => refuse c .openTable
      | _ => refuse c .noAssignment

end

/-- The cursor behind the end of a line: blanks, perhaps a comment, and a line break unless the
text ends. -/
def lineEnd (c : Cursor) : Except Fault Cursor := do
  let c ← skipComment (c.skip isGap)
  if c.atEnd then .ok c else need c .noLineEnd (lineBreak? c)

def header (c : Cursor) : Except Fault (Header × Cursor) :=
  let repeated := ['[', '['].isPrefixOf c.rest
  let brackets := if repeated then 2 else 1
  do
    let ((path, key), inside) ← dottedKey (c.advance brackets)
    if (List.replicate brackets ']').isPrefixOf inside.rest then
      let after := inside.advance brackets
      .ok (⟨path, key, repeated, spanTo c after⟩, after)
    else refuse inside .openHeader

def lines : Nat → Assembly → Cursor → Except Fault Assembly
  | 0, _, c => refuse c .noLineEnd
  | fuel + 1, a, c => do
    let c ← skipGaps c
    match c.rest with
    | [] => .ok a
    | '[' :: _ =>
      let (h, c) ← header c
      let c ← lineEnd c
      lines fuel (← a.openHeader h) c
    | _ =>
      let ((path, key), c) ← dottedKey c
      match c.rest with
      | '=' :: _ =>
        let (item, c) ← value (2 * c.rest.length + 2) maxDepth ((c.advance 1).skip isGap)
        let c ← lineEnd c
        lines fuel (← a.addLine path key (.value item)) c
      | _ => refuse c .noAssignment

/-- The tree of a TOML text, if it is one. A byte order mark may stand in front. -/
def read (text : String) : Except Fault TomlTree := do
  let cs := text.toList
  let c := Cursor.start cs
  let c := if cs.head? = some (Char.ofNat 0xfeff) then c.advance 1 else c
  let a ← lines (cs.length + 1) {} c
  let entries ← a.close
  .ok (.table ⟨0, 0⟩ (entryTrees entries) none)

end RubyScaffold.Toml
