import RubyScaffold.Json.Number
import RubyScaffold.Json.Text
import RubyScaffold.Tree

/-!
Reading JSON text as a tree. Reading stops at the first flaw, which then stands in the tree where
it was met. Values are nested at most 127 deep. What nobody asks for is passed over: its numbers
may have any size, its texts any surrogates and its nesting any depth.
-/

set_option autoImplicit false

namespace RubyScaffold.Json

open Text (Cursor)

/-- Where a value or a key stands: its first byte, the byte behind it, and the byte behind the
white space and the closing mark that may follow. -/
structure Place where
  start : Nat
  stop : Nat
  settled : Nat
  deriving DecidableEq, Repr

abbrev JsonTree := Tree Place Fault

def placeTo (c after : Cursor) : Place :=
  ⟨c.index, after.index, settledIndex after⟩

def openPlace (c : Cursor) : Place :=
  ⟨c.index, c.index, c.index⟩

inductive Opened where
  | list
  | table

def skipKey (c : Cursor) : Except Fault Cursor :=
  let c := skipSpace c
  match c.rest with
  | '"' :: _ => do
    let c ← skipQuoted (c.rest.length + 1) (c.advance 1)
    let c := skipSpace c
    match c.rest with
    | ':' :: _ => .ok (c.advance 1)
    | [] => .error (faultAt c .endInObject)
    | _ => .error (faultAt c .noColon)
  | [] => .error (faultAt c .endInObject)
  | _ => .error (faultAt c .keyNotText)

/-- What a passed-over value leaves to do: nothing, or the inside of a list or table. -/
def skipScalar (c : Cursor) : Except Fault (Option Opened × Cursor) :=
  match c.rest with
  | [] => .error (faultAt c .endInValue)
  | 'n' :: _ => (word ['u', 'l', 'l'] (c.advance 1)).map (none, ·)
  | 't' :: _ => (word ['r', 'u', 'e'] (c.advance 1)).map (none, ·)
  | 'f' :: _ => (word ['a', 'l', 's', 'e'] (c.advance 1)).map (none, ·)
  | '"' :: _ => (skipQuoted (c.rest.length + 1) (c.advance 1)).map (none, ·)
  | '[' :: _ => .ok (some .list, c.advance 1)
  | '{' :: _ => .ok (some .table, c.advance 1)
  | x :: _ =>
    if x = '-' ∨ x.isDigit then (skipNumber c).map (none, ·)
    else .error (faultAt c .noValue)

/-- After a value inside open lists and tables: the cursor before the next value, and what is
still open; nothing is open when the outermost value has ended. -/
def skipMarks (afterValue : Bool) : List Opened → Cursor →
    Except Fault (List Opened × Cursor)
  | [], c => .ok ([], c)
  | frame :: outer, c =>
    let s := skipSpace c
    let ended : Except Fault (List Opened × Cursor) := skipMarks true outer (s.advance 1)
    let goOn (s : Cursor) : Except Fault (List Opened × Cursor) := match frame with
      | .list => .ok (.list :: outer, s)
      | .table => (skipKey s).map fun s => (.table :: outer, s)
    match frame, s.rest with
    | .list, [] => .error (faultAt s .endInList)
    | .table, [] => .error (faultAt s .endInObject)
    | .list, ']' :: _ => ended
    | .table, '}' :: _ => ended
    | _, x :: _ =>
      if afterValue then
        if x = ',' then goOn (s.advance 1)
        else .error (faultAt s (match frame with | .list => .noListEnd | .table => .noObjectEnd))
      else goOn s

def skipValues : Nat → List Opened → Cursor → Except Fault Cursor
  | 0, _, c => faultHere c .endInValue
  | fuel + 1, opened, c => do
    let (inside, c) ← skipScalar (skipSpace c)
    let (opened, c) ← match inside with
      | some frame => skipMarks false (frame :: opened) c
      | none => skipMarks true opened c
    if opened.isEmpty then .ok c else skipValues fuel opened c

def skipValue (c : Cursor) : Except Fault Cursor :=
  skipValues (c.rest.length + 1) [] c

/-- A tree for a step that may have failed, and the cursor to go on from if it has not. -/
def leaf {α : Type} (c : Cursor) (build : Place → α → JsonTree)
    (r : Except Fault (α × Cursor)) : JsonTree × Option Cursor :=
  match r with
  | .ok (a, after) => (build (placeTo c after) a, some after)
  | .error f => (.unreadable (openPlace c) f, none)

abbrev Member := String × Place × JsonTree

mutual

def value : Nat → Nat → Interest → Cursor → JsonTree × Option Cursor
  | 0, _, _, c => (.unreadable (openPlace c) ⟨.endInValue, c.index⟩, none)
  | fuel + 1, depth, asked, c =>
    let c := skipSpace c
    match asked, c.rest with
    | .nothing, _ => leaf c (fun p _ => .skipped p) ((skipValue c).map ((), ·))
    | _, [] => (.unreadable (openPlace c) (faultAt c .endInValue), none)
    | _, 'n' :: _ =>
      leaf c (fun p _ => .null p) ((word ['u', 'l', 'l'] (c.advance 1)).map ((), ·))
    | _, 't' :: _ =>
      leaf c (fun p _ => .bool p true) ((word ['r', 'u', 'e'] (c.advance 1)).map ((), ·))
    | _, 'f' :: _ =>
      leaf c (fun p _ => .bool p false)
        ((word ['a', 'l', 's', 'e'] (c.advance 1)).map ((), ·))
    | _, '"' :: _ => leaf c Tree.text (quoted (c.advance 1))
    | _, '[' :: _ =>
      if depth = 0 then (.unreadable (openPlace c) (faultAt c .tooDeep), none)
      else match items fuel (depth - 1) asked 0 (c.advance 1) with
        | (found, .ok after) => (.list (placeTo c after) found none, some after)
        | (found, .error f) => (.list (openPlace c) found f, none)
    | _, '{' :: _ =>
      if depth = 0 then (.unreadable (openPlace c) (faultAt c .tooDeep), none)
      else match members fuel (depth - 1) asked true (c.advance 1) with
        | (found, .ok after) => (.table (placeTo c after) found none, some after)
        | (found, .error f) => (.table (openPlace c) found f, none)
    | _, x :: _ =>
      if x = '-' ∨ x.isDigit then
        leaf c (fun p n => match n with | .integer i => .integer p i | .float y => .float p y)
          (number c)
      else (.unreadable (openPlace c) (faultAt c .noValue), none)

/-- The items of a list from the given one on; then the cursor behind the list, or the fault that
broke it off between two items. -/
def items : Nat → Nat → Interest → Nat → Cursor → List JsonTree × Except (Option Fault) Cursor
  | 0, _, _, _, c => ([], .error (some ⟨.endInList, c.index⟩))
  | fuel + 1, depth, asked, i, c =>
    let c := skipSpace c
    let fail (c : Cursor) (flaw : Flaw) : List JsonTree × Except (Option Fault) Cursor :=
      ([], .error (some (faultAt c flaw)))
    let goOn (c : Cursor) : List JsonTree × Except (Option Fault) Cursor :=
      match value fuel depth (asked.item i) c with
      | (item, none) => ([item], .error none)
      | (item, some after) =>
        let (found, r) := items fuel depth asked (i + 1) after
        (item :: found, r)
    match c.rest with
    | [] => fail c .endInList
    | ']' :: _ => ([], .ok (c.advance 1))
    | x :: _ =>
      if i = 0 then goOn c
      else if x = ',' then
        let c := skipSpace (c.advance 1)
        match c.rest with
        | [] => fail c .endInValue
        | ']' :: _ => fail c .trailingComma
        | _ => goOn c
      else fail c .noListEnd

/-- The members of a table, where the first needs no comma; then the cursor behind the table, or
the fault that broke it off between two values. -/
def members : Nat → Nat → Interest → Bool → Cursor →
    List Member × Except (Option Fault) Cursor
  | 0, _, _, _, c => ([], .error (some ⟨.endInObject, c.index⟩))
  | fuel + 1, depth, asked, first, c =>
    let c := skipSpace c
    let fail (c : Cursor) (flaw : Flaw) : List Member × Except (Option Fault) Cursor :=
      ([], .error (some (faultAt c flaw)))
    let goOn (c : Cursor) : List Member × Except (Option Fault) Cursor :=
      match quoted (c.advance 1) with
      | .error f => ([], .error (some f))
      | .ok (key, afterKey) =>
        let place := placeTo c afterKey
        let colon := skipSpace afterKey
        let stuck (flaw : Flaw) : List Member × Except (Option Fault) Cursor :=
          ([(key, place, .unreadable (openPlace colon) (faultAt colon flaw))], .error none)
        match colon.rest with
        | [] => stuck .endInObject
        | ':' :: _ =>
          match value fuel depth (asked.member key) (colon.advance 1) with
          | (item, none) => ([(key, place, item)], .error none)
          | (item, some after) =>
            let (found, r) := members fuel depth asked false after
            ((key, place, item) :: found, r)
        | _ => stuck .noColon
    match c.rest with
    | [] => fail c .endInObject
    | '}' :: _ => ([], .ok (c.advance 1))
    | x :: _ =>
      if first then if x = '"' then goOn c else fail c .keyNotText
      else if x = ',' then
        let c := skipSpace (c.advance 1)
        match c.rest with
        | [] => fail c .endInValue
        | '"' :: _ => goOn c
        | '}' :: _ => fail c .trailingComma
        | _ => fail c .keyNotText
      else fail c .noObjectEnd

end

/-- A whole JSON text: its value, and the fault of what stands behind it. -/
structure Document where
  root : JsonTree
  ending : Option Fault

def maxDepth : Nat := 127

def read (asked : Interest) (text : String) : Document :=
  let cs := text.toList
  match value (2 * cs.length + 2) maxDepth asked (.start cs) with
  | (root, none) => ⟨root, none⟩
  | (root, some after) =>
    let after := skipSpace after
    ⟨root, if after.rest.isEmpty then none else some (faultAt after .trailingCharacters)⟩

end RubyScaffold.Json
