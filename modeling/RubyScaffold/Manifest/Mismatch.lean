import RubyScaffold.Decimal.Notation
import RubyScaffold.Tree
import RubyScaffold.Unicode.Visible

/-!
How a tree can fail to be a manifest, and how that is said.
-/

set_option autoImplicit false

namespace RubyScaffold

inductive Found where
  | null
  | bool (b : Bool)
  | integer (i : Int)
  | float (x : Binary64)
  | text (s : String)
  | list
  | table
  deriving DecidableEq, Repr

inductive Expected where
  | text
  | list
  | table
  | bool
  | anything
  | record (name : String)
  deriving DecidableEq, Repr

inductive Mismatch (π φ : Type) where
  | wrongKind (found : Found) (expected : Expected) (place : π)
  | unknownField (key : String) (known : List String) (place : π)
  | repeatedField (key : String) (place : π)
  | missingField (key : String) (place : π)
  | tooShort (length : Nat) (record : String) (fields : Nat) (place : π)
  | noDirectiveValue (place : π)
  | unreadable (fault : φ)

def Tree.found {π φ : Type} : Tree π φ → Found
  | .null _ | .skipped _ | .unreadable _ _ => .null
  | .bool _ b => .bool b
  | .integer _ i => .integer i
  | .float _ x => .float x
  | .text _ s => .text s
  | .list _ _ _ => .list
  | .table _ _ _ => .table

def hexDigits (n : Nat) : List Char := Nat.toDigits 16 n

def escapedChar (c : Char) : List Char :=
  if c = '"' then ['\\', '"']
  else if c = '\\' then ['\\', '\\']
  else if c = '\n' then ['\\', 'n']
  else if c = '\r' then ['\\', 'r']
  else if c = '\t' then ['\\', 't']
  else if c.toNat = 0 then ['\\', '0']
  else if Unicode.isVisible c then [c]
  else ['\\', 'u', '{'] ++ hexDigits c.toNat ++ ['}']

def quotedText (s : String) : String :=
  String.ofList ('"' :: s.toList.flatMap escapedChar ++ ['"'])

def ticked (s : String) : String := "`" ++ s ++ "`"

/-- An integer in words; one that no 64 bits hold is named by the width that holds it. -/
def integerText (i : Int) : String :=
  if -0x8000000000000000 ≤ i ∧ i < 0x10000000000000000 then "integer " ++ ticked (toString i)
  else if i < 0x80000000000000000000000000000000 then
    "integer " ++ ticked (toString i) ++ " as i128"
  else "integer " ++ ticked (toString i) ++ " as u128"

def Found.describe (float : Binary64 → String) : Found → String
  | .null => "null"
  | .bool b => "boolean " ++ ticked (if b then "true" else "false")
  | .integer i => integerText i
  | .float x => "floating point " ++ ticked (float x)
  | .text s => "string " ++ quotedText s
  | .list => "sequence"
  | .table => "map"

def Expected.describe : Expected → String
  | .text => "a string"
  | .list => "a sequence"
  | .table => "a map"
  | .bool => "a boolean"
  | .anything => "any value"
  | .record name => "struct " ++ name

def choiceText : List String → String
  | [] => "there are no fields"
  | [a] => "expected " ++ ticked a
  | [a, b] => "expected " ++ ticked a ++ " or " ++ ticked b
  | names => "expected one of " ++ String.intercalate ", " (names.map ticked)

def Mismatch.message {π φ : Type} (float : Binary64 → String) (fault : φ → String) :
    Mismatch π φ → String
  | .wrongKind found expected _ =>
    "invalid type: " ++ found.describe float ++ ", expected " ++ expected.describe
  | .unknownField key known _ => "unknown field " ++ ticked key ++ ", " ++ choiceText known
  | .repeatedField key _ => "duplicate field " ++ ticked key
  | .missingField key _ => "missing field " ++ ticked key
  | .tooShort length record fields _ =>
    "invalid length " ++ toString length ++ ", expected struct " ++ record ++ " with " ++
      toString fields ++ (if fields = 1 then " element" else " elements")
  | .noDirectiveValue _ => "data did not match any variant of untagged enum DirectiveValue"
  | .unreadable f => fault f

end RubyScaffold
