import RubyScaffold.Grammar.Argument
import RubyScaffold.Grammar.Parameter

/-!
Bodies: lists of statements, what is rescued from them, blocks, branches and loops.
-/

set_option autoImplicit false

namespace RubyScaffold.Grammar

def skipTerminators : Parse Unit :=
  repeatWhile acceptTerminator

def statementList (rules : Rules) : Parse Unit :=
  repeatWhile do
    skipTerminators
    if endsStatements (← peek).token then return false
    discard (rules (.statement false))
    let t := (← peek).token
    return t == .lineEnd || t == .sign ";"

def statements (rules : Rules) : Parse Unit :=
  discard (rules .statements)

def expectWord (word : String) : Parse Unit :=
  expect (.word word)

def expectThen : Parse Unit := do
  let ended ← acceptTerminator
  if !(← accept (.word "then")) && !ended then unexpected

def rescuedErrors (rules : Rules) : Parse Unit := do
  let t := (← peek).token
  if beginsArgument t then valueList rules
  if ← accept (.sign "=>") then target rules

/-- Reads a body up to its end: statements, then what is rescued, then what is done otherwise,
then what is done in any case. -/
def body (rules : Rules) : Parse Unit := do
  statements rules
  let rescued ← repeatFrom (fun (_ : Bool) => do
    if ← accept (.word "rescue") then
      rescuedErrors rules
      expectThen
      statements rules
      return some true
    else return none) false
  let lexeme ← peek
  if ← accept (.word "else") then
    if !rescued then failAt lexeme.line
    statements rules
  if ← accept (.word "ensure") then statements rules

def bodyToEnd (rules : Rules) : Parse Unit :=
  keepingDo do
    body rules
    expectWord "end"

def braceBlock (rules : Rules) : Parse Unit :=
  within (fun outer => { outer with parameter := none }) do
    inScope true do
      blockParameters rules
      statements rules
    expect .closeBrace

def doBlock (rules : Rules) : Parse Unit :=
  within (fun outer => { outer with parameter := none }) do
    inScope true do
      blockParameters rules
      bodyToEnd rules

def otherBranches (rules : Rules) : Parse Unit := do
  repeatWhile do
    if ← accept (.word "elsif") then
      expressionValue rules
      expectThen
      statements rules
      return true
    else return false
  if ← accept (.word "else") then statements rules
  expectWord "end"

def conditional (rules : Rules) : Parse Unit := do
  expressionValue rules
  expectThen
  statements rules
  otherBranches rules

def negatedConditional (rules : Rules) : Parse Unit := do
  expressionValue rules
  expectThen
  statements rules
  if ← accept (.word "else") then statements rules
  expectWord "end"

/-- Reads the value in the head of a loop, in which a `do` belongs to the loop. -/
def loopHead (rules : Rules) : Parse Unit := do
  modify fun s => { s with loops := true :: s.loops }
  expressionValue rules
  if !(← accept (.doWord .loop)) then expectTerminator
  modify fun s => { s with loops := s.loops.drop 1 }

def loop (rules : Rules) : Parse Unit := do
  loopHead rules
  statements rules
  expectWord "end"

def elementLoop (rules : Rules) : Parse Unit := do
  if ← nextIs (.word "in") then unexpected
  moreTargets rules
  expectWord "in"
  loop rules

end RubyScaffold.Grammar
