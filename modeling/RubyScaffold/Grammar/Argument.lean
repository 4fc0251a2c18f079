import RubyScaffold.Grammar.Rule

/-!
The arguments of calls and the elements of arrays and hashes. A list holds values first, then
pairs of a key and a value, then at most one block.
-/

set_option autoImplicit false

namespace RubyScaffold.Grammar

inductive Entry where
  | value | command | starred | pair | block | forwarded
  deriving DecidableEq, Repr

/-- What a list of entries may hold: values, pairs, and what a call takes besides, which is a
command as its only entry and a block behind all others. -/
structure EntryList where
  values : Bool
  pairs : Bool
  isCall : Bool

def EntryList.ofCall : EntryList := ⟨true, true, true⟩

def EntryList.ofArray : EntryList := ⟨true, true, false⟩

def EntryList.ofHash : EntryList := ⟨false, true, false⟩

def EntryList.ofValues : EntryList := ⟨true, false, false⟩

/-- Reads the value behind a label. Without one, the label names a variable or a method. -/
def labelValue (rules : Rules) (name : String) (line : Nat) : Parse Unit := do
  if beginsArgument (← peek).token then argumentValue rules
  else if name.toList.getLast?.any fun c => c == '?' || c == '!' then failAt line

/-- Reads the block behind an ampersand. Without one, the block of the method is meant, which
has to have one. -/
def blockArgument (rules : Rules) (line : Nat) : Parse Unit := do
  if beginsArgument (← peek).token then argumentValue rules
  else if !isDeclared "&" (← get).scopes then failAt line

/-- Reads what follows three dots in front of an argument: all arguments of the method are meant,
or the dots begin a range. -/
def dottedArgument (rules : Rules) (line : Nat) : Parse Entry := do
  if ← nextIs (.sign ")") then
    if isDeclared "..." (← get).scopes then return .forwarded else failAt line
  else
    discard (needValue (← rules (.operation 5 .argument false)))
    return .value

def valueOrPair (rules : Rules) (list : EntryList) (reach : Reach) : Parse Entry := do
  let f ← rules (.operation 0 reach false)
  if f.shape == .label then
    if !list.pairs then failAt f.line
    argumentValue rules
    return .pair
  else if f.shape.isCommand then return .command
  else
    discard (needValue f)
    if list.pairs && (← nextIs (.sign "=>")) then
      discard advance
      argumentValue rules
      return .pair
    else return .value

def entry (rules : Rules) (list : EntryList) (isFirst : Bool) : Parse Entry := do
  let lexeme ← peek
  match lexeme.token with
  | .label name =>
    if !list.pairs then unexpected
    discard advance
    labelValue rules name lexeme.line
    return .pair
  | .leading "**" =>
    if !list.pairs then unexpected
    discard advance
    argumentValue rules
    return .pair
  | .leading "*" =>
    if !list.values then unexpected
    discard advance
    argumentValue rules
    return .starred
  | .leading "&" =>
    if !list.isCall then unexpected
    discard advance
    blockArgument rules lexeme.line
    return .block
  | .leading "..." =>
    if list.isCall then
      discard advance
      dottedArgument rules lexeme.line
    else valueOrPair rules list .argument
  | _ => valueOrPair rules list (if list.isCall && isFirst then .expression else .argument)

structure EntryProgress where
  isFirst : Bool
  onlyPairs : Bool
  withBlock : Bool
  done : Bool

/-- Reads the entries of a list up to a token that closes it, or up to one that cannot follow.
Where there is a closing token, a comma may stand in front of it. The answer says whether a block
is among the entries. -/
def entries (rules : Rules) (list : EntryList) (closer : Option Token) : Parse Bool := do
  let closes : Parse Bool := do
    match closer with
    | none => return false
    | some t => nextIs t
  if ← closes then return false
  let step (p : EntryProgress) : Parse (Option EntryProgress) := do
    if p.done then return none
    let line := (← peek).line
    let kind ← entry rules list p.isFirst
    match kind with
    | .value | .command => if p.onlyPairs || !list.values then unexpected
    | .starred => if p.onlyPairs then failAt line
    | _ => pure ()
    let isLast := kind == .block || kind == .command || kind == .forwarded
    let goesOn ← if isLast then pure false else accept (.sign ",")
    let done ← if goesOn then closes else pure true
    return some ⟨false, p.onlyPairs || kind == .pair, kind == .block, done⟩
  return (← repeatFrom step ⟨true, false, false, false⟩).withBlock

def expectCloser (closer : Token) : Parse Unit := do
  acceptLineEnd
  expect closer

/-- Reads the arguments of a call behind their opening sign. The answer says whether a block is
among them. -/
def enclosedArguments (rules : Rules) (closer : Token) : Parse Bool := do
  let withBlock ← entries rules .ofCall (some closer)
  expectCloser closer
  return withBlock

def openArguments (rules : Rules) : Parse Bool :=
  entries rules .ofCall none

/-- Reads the arguments of a call without parentheses, to which a `do` inside of them does not
belong. If they begin with a bracket, that bracket has been entered already. -/
def commandArguments (rules : Rules) : Parse Bool := do
  let opensBracket := match (← peek).token with
    | .leading text | .sign text => text == "(" || text == "["
    | .argumentParen => true
    | _ => false
  modify fun s =>
    let commands := if opensBracket then s.commands.drop 1 else s.commands
    { s with commands := if opensBracket then false :: true :: commands else true :: commands }
  let withBlock ← openArguments rules
  let opensBlock ← nextIs .argumentBrace
  modify fun s =>
    { s with commands := if opensBlock then false :: s.commands.drop 2 else s.commands.drop 1 }
  return withBlock

def arrayElements (rules : Rules) : Parse Unit := do
  discard (entries rules .ofArray (some (.sign "]")))
  expectCloser (.sign "]")

def valueList (rules : Rules) : Parse Unit :=
  discard (entries rules .ofValues none)

def hashPairs (rules : Rules) : Parse Unit := do
  discard (entries rules .ofHash (some .closeBrace))
  expectCloser .closeBrace

end RubyScaffold.Grammar
