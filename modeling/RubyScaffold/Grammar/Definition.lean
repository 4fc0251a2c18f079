import RubyScaffold.Grammar.Body

/-!
Definitions of classes, modules, methods and lambdas. Each has names of its own.
-/

set_option autoImplicit false

namespace RubyScaffold.Grammar

def constantPath (rules : Rules) : Parse Unit := do
  let f ← rules (.primary false)
  match f.shape with
  | .constant | .constantPath => pure ()
  | .name _ | .member _ true => failAt f.line
  | _ => unexpected

def separateBody (rules : Rules) (change : Surroundings → Surroundings) : Parse Unit := do
  within change (inScope false (bodyToEnd rules))

def Surroundings.inClassBody (s : Surroundings) : Surroundings :=
  { s with inClass := true, inMethod := false, parameter := none }

def singletonClass (rules : Rules) : Parse Unit := do
  expressionValue rules
  expectTerminator
  separateBody rules fun s => { s with inClass := false, inMethod := false, parameter := none }

/-- Reads a class behind its reserved word. A method holds no class. -/
def classDefinition (rules : Rules) (line : Nat) : Parse Unit := do
  if ← accept (.sign "<<") then singletonClass rules
  else
    constantPath rules
    if ← nextIs (.sign "<") then
      beginStatement
      discard advance
      expressionValue rules
      expectTerminator
    if (← get).surroundings.inMethod then failAt line
    separateBody rules Surroundings.inClassBody

def moduleDefinition (rules : Rules) (line : Nat) : Parse Unit := do
  constantPath rules
  if (← get).surroundings.inMethod then failAt line
  separateBody rules Surroundings.inClassBody

def methodSigns : List String :=
  ["|", "^", "&", "<=>", "==", "===", "=~", ">", ">=", "<", "<=", "!=", "<<", ">>", "+", "-",
    "*", "**", "/", "%", "!", "~", "!~", "[]", "[]=", "`"]

def methodName? : Token → Option String
  | .name text | .predicate text | .constant text | .word text => some text
  | .sign text => if methodSigns.contains text then some text else none
  | _ => none

def mayOwnMethod : Token → Bool
  | .name _ | .constant _ | .instanceVariable | .classVariable | .globalVariable => true
  | .word text =>
    ["nil", "self", "true", "false", "__FILE__", "__LINE__", "__ENCODING__"].contains text
  | _ => false

def nextIsMemberSign : Parse Bool := do
  return (← nextIs (.sign ".")) || (← nextIs (.sign "::"))

def ownedMethodName : Parse Lexeme := do
  if !(← nextIsMemberSign) then unexpected
  setMode (.plain .methodName)
  discard advance
  let lexeme ← advance
  setMode ⟨.afterParen, true, false, false⟩
  return lexeme

def definedName (rules : Rules) : Parse Lexeme := do
  let lexeme ← advance
  if lexeme.token == .sign "(" then
    setMode .value
    expressionValue rules
    expectCloser (.sign ")")
    ownedMethodName
  else
    setMode (.plain .afterParen)
    if mayOwnMethod lexeme.token && (← nextIsMemberSign) then ownedMethodName
    else return lexeme

/-- Reads the parameters of a method. Without parentheses, a terminator ends them. The answer
says whether an equals sign may follow. -/
def methodParameters (rules : Rules) : Parse Bool := do
  if ← accept (.sign "(") then
    parameters rules .method fun t => t == .sign ")" || t == .lineEnd
    acceptLineEnd
    if !(← nextIs (.sign ")")) then unexpected
    beginStatement
    modify fun s => { s with surroundings := { s.surroundings with inParameters := false } }
    discard advance
    return true
  else if ← nextIs (.sign "=") then
    modify fun s => { s with surroundings := { s.surroundings with inParameters := false } }
    return true
  else
    within (fun outer => { outer with inLabelList := true }) do
      parameters rules .method fun t => t == .sign ";" || t == .lineEnd
      discard peek
    if !(← nextIs .lineEnd) && !(← nextIs (.sign ";")) then unexpected
    modify fun s => { s with surroundings := { s.surroundings with inParameters := false } }
    beginStatement
    discard advance
    return false

/-- Reads what a method without an end answers with. A method that assigns cannot be so. -/
def methodResult (rules : Rules) (name : String) (line : Nat) : Parse Form := do
  let assigns := name.toList.getLast? == some '=' &&
    (name == "[]=" || name.toList.head?.any beginsName)
  if assigns then failAt line
  let f ← rules (.operation 0 .expression false)
  if ← accept (.modifier "rescue") then argumentValue rules
  return ⟨if f.shape.isCommand then .command else .other, line⟩

def methodDefinition (rules : Rules) (line : Nat) : Parse Form := do
  let lexeme ← definedName rules
  let name ← match methodName? lexeme.token with
    | some name => pure name
    | none => failAt lexeme.line
  if isNumbered name then failAt lexeme.line
  let change (outer : Surroundings) : Surroundings :=
    { outer with inMethod := true, inLabelList := false, inParameters := true, parameter := none }
  within change do
    inScope false do
      let mayEqual ← methodParameters rules
      if mayEqual && (← accept (.sign "=")) then methodResult rules name lexeme.line
      else
        bodyToEnd rules
        return ⟨.other, line⟩

def lambdaParameters (rules : Rules) : Parse Unit := do
  if ← accept (.sign "(") then
    parameters rules .lambda fun t => t == .sign ")" || t == .sign ";" || t == .lineEnd
    blockLocals
    expectCloser (.sign ")")
  else
    parameters rules .lambda fun t =>
      t == .lambdaBrace || t == .doWord .lambda || t == .sign ";" || t == .lineEnd
    blockLocals

/-- Reads a lambda behind its arrow. A `do` inside belongs to no command around the lambda. -/
def lambda (rules : Rules) : Parse Unit := do
  let outer ← get
  set { outer with lambdaDepth := some outer.depth }
  within (fun s => { s with parameter := none }) do
    inScope true do
      lambdaParameters rules
      let opening ← advance
      modify fun s => { s with commands := false :: s.commands }
      match opening.token with
      | .lambdaBrace =>
        statements rules
        expect .closeBrace
      | .doWord .lambda => bodyToEnd rules
      | _ => failAt opening.line
      modify fun s => { s with commands := outer.commands, lambdaDepth := outer.lambdaDepth }

end RubyScaffold.Grammar
