import RubyScaffold.Grammar.Primary

/-!
Operations and assignments. Each operator has a level, and one of a higher level binds tighter.
-/

set_option autoImplicit false

namespace RubyScaffold.Grammar

inductive Grouping where
  | leftToRight | rightToLeft | apart
  deriving DecidableEq, Repr

def operatorLevel? : Token → Option (Nat × Grouping)
  | .sign text =>
    if text == "?" then some (3, .rightToLeft)
    else if text == ".." || text == "..." then some (4, .apart)
    else if text == "||" then some (5, .leftToRight)
    else if text == "&&" then some (6, .leftToRight)
    else if ["<=>", "==", "===", "!=", "=~", "!~"].contains text then some (7, .apart)
    else if ["<", "<=", ">", ">="].contains text then some (8, .leftToRight)
    else if text == "|" || text == "^" then some (9, .leftToRight)
    else if text == "&" then some (10, .leftToRight)
    else if text == "<<" || text == ">>" then some (11, .leftToRight)
    else if text == "+" || text == "-" then some (12, .leftToRight)
    else if text == "*" || text == "/" || text == "%" then some (13, .leftToRight)
    else if text == "**" then some (15, .rightToLeft)
    else none
  | _ => none

def operand (rules : Rules) (level : Nat) : Parse Unit := do
  discard (needValue (← rules (.operation level .argument false)))

def rightOperand (rules : Rules) (sign : String) (level : Nat) (grouping : Grouping) :
    Parse Unit := do
  if sign == "?" then
    operand rules 0
    acceptLineEnd
    expect (.sign ":")
    operand rules level
  else if sign == ".." || sign == "..." then
    if beginsArgument (← peek).token then operand rules (level + 1)
  else operand rules (if grouping == .rightToLeft then level else level + 1)

/-- Reads an operator and what follows it, if its level is among those that may follow. Two
operators that stand apart do not follow each other, so the second bound is lowered by one. -/
def operationStep (rules : Rules) (lowest : Nat) (state : Form × Nat) :
    Parse (Option (Form × Nat)) := do
  let (f, highest) := state
  let lexeme ← peek
  match lexeme.token, operatorLevel? lexeme.token with
  | .sign sign, some (level, grouping) =>
    if level < lowest || highest < level then return none
    discard (needValue f)
    discard advance
    rightOperand rules sign level grouping
    return some (⟨.other, f.line⟩, if grouping == .apart then level - 1 else highest)
  | _, _ => return none

def commandChain (rules : Rules) : Parse Unit :=
  repeatWhile do
    let t := (← peek).token
    if t == .sign "." || t == .sign "&." || t == .sign "::" then
      discard advance
      let f ← dottedMember rules
      let next := (← peek).token
      if next == .blockBrace || next == .doWord .call then
        discard (primaryStep rules f)
      else if f.shape.takesArgument && beginsArgument next then
        discard (commandArguments rules)
        if ← accept (.doWord .command) then doBlock rules
      return true
    else return false

/-- Reads the arguments of a command and its block. There is one block at most, and none where
the block of the method is called. -/
def command (rules : Rules) (f : Form) : Parse Form := do
  if f.shape == .jump then
    discard (openArguments rules)
    return f
  else
    let refusesBlock := (← commandArguments rules) || f.shape == .yielded
    let next := (← peek).token
    if next == .argumentBrace then
      if refusesBlock then failAt f.line
      discard advance
      braceBlock rules
    else if next == .doWord .command then
      if refusesBlock then failAt f.line
      discard advance
      doBlock rules
      commandChain rules
    return ⟨.command, f.line⟩

/-- Reads what is assigned and what is assigned instead if an error occurs. Where a statement may
be read, several values may be assigned at once. -/
def assignedValue (rules : Rules) (reach : Reach) (plain : Bool) (line : Nat) : Parse Form := do
  let inStatement := reach == .statement && plain
  if inStatement && (← nextIs (.leading "*")) then
    valueList rules
    return ⟨.command, line⟩
  let isCommandPlace := reach == .statement || reach == .assigned
  let f ← needValue
    (← rules (.operation 0 (if isCommandPlace then .assigned else .argument) false))
  if f.shape.isCommand then
    if ← accept (.modifier "rescue") then discard (rules (.statement false))
    return ⟨.command, line⟩
  else
    if ← accept (.modifier "rescue") then operand rules 0
    if inStatement && (← accept (.sign ",")) then
      valueList rules
      return ⟨.command, line⟩
    else return ⟨.other, line⟩

def assignment (rules : Rules) (f : Form) (reach : Reach) : Parse Form := do
  let plain ← nextIs (.sign "=")
  assignTo f
  discard advance
  assignedValue rules reach plain f.line

def prefixedOperand (rules : Rules) (reach : Reach) (grouped : Bool) : Parse Form := do
  let lexeme ← peek
  let other : Form := ⟨.other, lexeme.line⟩
  let commandReach : Reach := if reach == .argument then .argument else .expression
  match lexeme.token with
  | .leading "-" =>
    discard advance
    operand rules 15
    return other
  | .leading "+" | .sign "~" =>
    discard advance
    operand rules 16
    return other
  | .sign "!" =>
    discard advance
    let f ← needValue (← rules (.operation 16 commandReach false))
    return ⟨if f.shape.isCommand then .command else .other, lexeme.line⟩
  | .leading ".." | .leading "..." =>
    discard advance
    operand rules 5
    return other
  | .word "defined?" =>
    if (← get).rest.head? == some '(' then rules (.primary false)
    else
      discard advance
      acceptLineEnd
      discard (rules (.operation 0 .argument false))
      return other
  | _ =>
    let f ← rules (.primary grouped)
    let next := (← peek).token
    if f.shape.isTarget && (next == .sign "=" || next == .assignment) then
      if f.shape == .targets then return f else assignment rules f reach
    else if reach != .argument && f.shape.takesArgument && beginsArgument next then
      command rules f
    else return f

def operationRule (rules : Rules) (level : Nat) (reach : Reach) (grouped : Bool) :
    Parse Form := do
  let f ← prefixedOperand rules reach grouped
  if f.shape.isCommand || f.shape == .targets || f.shape == .label then return f
  else return (← repeatFrom (operationStep rules level) (f, 16)).1

end RubyScaffold.Grammar
