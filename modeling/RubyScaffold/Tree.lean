import RubyScaffold.Decimal.Binary64

/-!
Values as a text format delivers them. Every value, and every key of a table, knows its place in
the text. A reader that meets an error leaves it where it stands, so that whoever walks the tree in
order meets the errors of the text and of the values in one order; a reader without errors of its
own has an empty type of faults.
-/

set_option autoImplicit false

namespace RubyScaffold

/-- A value with its places `π` and the faults `φ` that its reader may have met. A list or table
that broke off ends with the fault that ended it. -/
inductive Tree (π φ : Type) where
  | null (place : π)
  | bool (place : π) (value : Bool)
  | integer (place : π) (value : Int)
  | float (place : π) (value : Binary64)
  | text (place : π) (value : String)
  | list (place : π) (items : List (Tree π φ)) (ending : Option φ)
  | table (place : π) (members : List (String × π × Tree π φ)) (ending : Option φ)
  /-- A value that nobody asked for. -/
  | skipped (place : π)
  | unreadable (place : π) (fault : φ)

def Tree.place {π φ : Type} : Tree π φ → π
  | .null p | .bool p _ | .integer p _ | .float p _ | .text p _ | .list p _ _ | .table p _ _
  | .skipped p | .unreadable p _ => p

/-- Which parts of a text a reader is asked for; the others are only checked to be well formed. -/
inductive Interest where
  | everything
  | nothing
  | parts (member : String → Interest) (item : Nat → Interest)

def Interest.member : Interest → String → Interest
  | .everything, _ => .everything
  | .nothing, _ => .nothing
  | .parts member _, key => member key

def Interest.item : Interest → Nat → Interest
  | .everything, _ => .everything
  | .nothing, _ => .nothing
  | .parts _ item, i => item i

end RubyScaffold
