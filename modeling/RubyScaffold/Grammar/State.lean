import RubyScaffold.Grammar.Mode
import RubyScaffold.Grammar.Token

/-!
The state of a reading: what is left of the document, what the text so far makes of the next
token, and the names in sight. A reading ends well or with the line of its first error.
-/

set_option autoImplicit false

namespace RubyScaffold.Grammar

/-- The names of a method, a class or a block. A block sees the names around it. -/
structure Scope where
  names : List String
  isBlock : Bool

/-- Where in the document the reading is, as far as declarations care. -/
structure Surroundings where
  inMethod : Bool
  inClass : Bool
  inLabelList : Bool
  inParameters : Bool
  parameter : Option String

/-- The state of a reading. Behind the end of the current line the reading goes on at `resume`,
if a text that began on this line fills the next ones. `loops` and `commands` say of each open
bracket whether a `do` belongs to a loop or to a command around it; `boundNames` are the names that
the pattern at hand has bound. -/
structure State where
  rest : List Char
  line : Nat
  lineStart : Bool
  resume : Option (List Char × Nat)
  peeked : Option Lexeme
  mode : Mode
  statementStart : Bool
  depth : Nat
  lambdaDepth : Option Nat
  loops : List Bool
  commands : List Bool
  scopes : List Scope
  boundNames : List String
  surroundings : Surroundings
  size : Nat

abbrev Parse := StateT State (Except Nat)

def State.start (document : List Char) : State where
  rest := document
  line := 1
  lineStart := true
  resume := none
  peeked := none
  mode := .value
  statementStart := true
  depth := 0
  lambdaDepth := none
  loops := []
  commands := []
  scopes := [⟨[], false⟩]
  boundNames := []
  surroundings := ⟨false, false, false, false, none⟩
  size := document.length + 2

def iterate {α : Type} (step : α → Parse (Option α)) : Nat → α → Parse α
  | 0, a => pure a
  | n + 1, a => do
    match ← step a with
    | none => pure a
    | some b => iterate step n b

/-- Repeats a step as long as it answers with a new value. Each step reads something, so the size
of the document bounds their number. -/
def repeatFrom {α : Type} (step : α → Parse (Option α)) (a : α) : Parse α := do
  iterate step (← get).size a

def repeatWhile (step : Parse Bool) : Parse Unit :=
  repeatFrom (fun _ => do return if ← step then some () else none) ()

namespace State

def setMode (m : Mode) (s : State) : State := { s with mode := m }

def skip (n : Nat) (s : State) : State :=
  { s with rest := s.rest.drop n, lineStart := s.lineStart && n == 0 }

/-- The state at the start of the next line that is not part of a text begun on this one. -/
def nextLine (rest : List Char) (s : State) : State :=
  match s.resume with
  | some (rest, line) =>
    { s with rest := rest, line := line, lineStart := true, resume := none }
  | none => { s with rest := rest, line := s.line + 1, lineStart := true }

/-- The next character and the state behind it. A line may end with a carriage return and a line
feed, which are read as one. -/
def next? (s : State) : Option (Char × State) :=
  match s.rest with
  | [] => none
  | '\r' :: '\n' :: rest => some ('\n', s.nextLine rest)
  | '\n' :: rest => some ('\n', s.nextLine rest)
  | c :: rest => some (c, { s with rest := rest, lineStart := false })

def openBracket (s : State) : State :=
  { s with depth := s.depth + 1, loops := false :: s.loops, commands := false :: s.commands }

def closeBracket (s : State) : State :=
  { s with depth := s.depth - 1, loops := s.loops.drop 1, commands := s.commands.drop 1 }

def atLambdaBody (s : State) : Bool :=
  s.lambdaDepth == some s.depth

end State

def isDeclared (name : String) : List Scope → Bool
  | [] => false
  | scope :: outer =>
    scope.names.contains name || (scope.isBlock && isDeclared name outer)

def declare (name : String) : Parse Unit :=
  modify fun s =>
    match s.scopes with
    | [] => s
    | scope :: outer => { s with scopes := { scope with names := name :: scope.names } :: outer }

/-- Reads what a `do` inside of it does not leave: it belongs to nothing around it. -/
def keepingDo {α : Type} (body : Parse α) : Parse α := do
  let outer ← get
  set { outer with loops := false :: outer.loops, commands := false :: outer.commands }
  let result ← body
  modify fun s => { s with loops := outer.loops, commands := outer.commands }
  return result

def inScope {α : Type} (isBlock : Bool) (body : Parse α) : Parse α := do
  let outer := (← get).scopes
  modify fun s => { s with scopes := ⟨[], isBlock⟩ :: outer }
  let result ← body
  modify fun s => { s with scopes := outer }
  return result

def bindingNames {α : Type} (body : Parse α) : Parse α := do
  let outer := (← get).boundNames
  modify fun s => { s with boundNames := [] }
  let result ← body
  modify fun s => { s with boundNames := outer }
  return result

def within {α : Type} (change : Surroundings → Surroundings) (body : Parse α) : Parse α := do
  let outer := (← get).surroundings
  modify fun s => { s with surroundings := change outer }
  let result ← body
  modify fun s => { s with surroundings := outer }
  return result

def failAt {α : Type} (line : Nat) : Parse α :=
  throw line

def failHere {α : Type} : Parse α := do
  throw (← get).line

end RubyScaffold.Grammar
