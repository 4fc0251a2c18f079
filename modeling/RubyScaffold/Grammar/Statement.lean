import RubyScaffold.Grammar.Operation

/-!
Expressions and statements.
-/

set_option autoImplicit false

namespace RubyScaffold.Grammar

def negatedExpression (rules : Rules) (reach : Reach) (grouped : Bool) : Parse Form := do
  let lexeme ← peek
  if lexeme.token == .word "not" && (← get).rest.head? != some '(' then
    discard advance
    acceptLineEnd
    discard (needValue (← rules (.expression .expression false)))
    return ⟨.other, lexeme.line⟩
  else
    let f ← rules (.operation 0 reach grouped)
    if f.shape.isCommand then return f
    let t := (← peek).token
    if t == .sign "=>" || t == .word "in" then
      discard (needValue f)
      modify fun s => { s with mode := .valueOrLabel, statementStart := false }
      discard advance
      within (fun outer => { outer with inLabelList := true }) do
        outerPattern rules
        discard peek
      return ⟨.command, lexeme.line⟩
    else return f

def expressionRule (rules : Rules) (reach : Reach) (grouped : Bool) : Parse Form := do
  let first ← negatedExpression rules reach grouped
  repeatFrom (fun (f : Form) => do
    if (← nextIs (.word "and")) || (← nextIs (.word "or")) then
      discard (needValue f)
      discard advance
      discard (negatedExpression rules .expression false)
      return some ⟨.other, f.line⟩
    else return none) first

def methodItem (rules : Rules) : Parse Unit := do
  let lexeme ← advance
  match lexeme.token with
  | .symbolMark => symbolName
  | .quote q =>
    if q.content == .symbol then discard (quotedLiteral rules q lexeme.line)
    else failAt lexeme.line
  | t => if (methodName? t).isNone then failAt lexeme.line

def aliasNames (rules : Rules) : Parse Unit := do
  if ← accept .globalVariable then
    if !(← accept .globalVariable) then unexpected
  else
    methodItem rules
    setMode .methodItem
    methodItem rules
    setMode .operator

def undefinedNames (rules : Rules) : Parse Unit := do
  repeatWhile do
    methodItem rules
    setMode .operator
    if ← nextIs (.sign ",") then
      setMode .methodItem
      accept (.sign ",")
    else return false

def bracedStatements (rules : Rules) : Parse Unit := do
  expect .blockBrace
  statements rules
  expect .closeBrace

def assignedValues (rules : Rules) : Parse Unit := do
  expect (.sign "=")
  if ← nextIs (.leading "*") then valueList rules
  else
    let f ← needValue (← rules (.operation 0 .assigned false))
    if !f.shape.isCommand && (← accept (.sign ",")) then valueList rules
  if ← accept (.modifier "rescue") then discard (rules (.statement false))

def behindTargets (rules : Rules) (grouped : Bool) (line : Nat) : Parse Form := do
  if grouped && (← nextIs (.sign ")")) then return ⟨.targets, line⟩
  else
    assignedValues rules
    return ⟨.command, line⟩

def plainStatement (rules : Rules) (grouped : Bool) : Parse Form := do
  let lexeme ← peek
  let line := lexeme.line
  let done : Form := ⟨.command, line⟩
  match lexeme.token with
  | .word "alias" =>
    discard advance
    aliasNames rules
    return done
  | .word "undef" =>
    discard advance
    undefinedNames rules
    return done
  | .word "END" =>
    discard advance
    bracedStatements rules
    return done
  | .leading "*" =>
    discard advance
    starredTarget rules
    if ← accept (.sign ",") then moreTargets rules
    behindTargets rules grouped line
  | _ =>
    let f ← rules (.expression .statement true)
    let next := (← peek).token
    if f.shape.isTarget && next == .sign "," then
      assignTo f
      discard advance
      moreTargets rules
      behindTargets rules grouped line
    else if f.shape == .targets then behindTargets rules grouped line
    else return f

def statementRule (rules : Rules) (grouped : Bool) : Parse Form := do
  let first ← plainStatement rules grouped
  if first.shape == .targets then return first
  repeatFrom (fun (f : Form) => do
    match (← peek).token with
    | .modifier "rescue" =>
      discard advance
      discard (plainStatement rules false)
      return some ⟨.other, f.line⟩
    | .modifier _ =>
      discard advance
      expressionValue rules
      return some ⟨.other, f.line⟩
    | _ => return none) first

end RubyScaffold.Grammar
