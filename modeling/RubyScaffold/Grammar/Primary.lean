import RubyScaffold.Grammar.Definition
import RubyScaffold.Grammar.Pattern
import RubyScaffold.Grammar.Quoted

/-!
Primary values: literals, names, constructs that end with a word of their own, and calls on a
value.
-/

set_option autoImplicit false

namespace RubyScaffold.Grammar

def symbolName : Parse Unit := do
  let lexeme ← advance
  let named := (methodName? lexeme.token).isSome ||
    [.instanceVariable, .classVariable, .globalVariable].contains lexeme.token
  if named then setMode .operator else failAt lexeme.line

def parenArguments? (rules : Rules) : Parse (Option Bool) := do
  if ← accept (.sign "(") then return some (← enclosedArguments rules (.sign ")"))
  else return none

def named (rules : Rules) (shape : Shape) (line : Nat) : Parse Form := do
  match ← parenArguments? rules with
  | some blockArgument => return ⟨.call blockArgument, line⟩
  | none => return ⟨shape, line⟩

/-- Reads what follows a name that may be a local variable. A default value must not use the
parameter it belongs to. -/
def localOrCall (rules : Rules) (text : String) (line : Nat) : Parse Form := do
  let f ← named rules (.name text) line
  let isOwnDefault := (← get).surroundings.parameter == some text
  if f.shape == .name text && isOwnDefault then failAt line else return f

/-- Reads what follows an opening parenthesis in front of a value. Where targets are grouped, a
list of them may be all that is in the parentheses. -/
def parenthesized (rules : Rules) (grouped : Bool) (line : Nat) : Parse Form := do
  skipTerminators
  if endsStatements (← peek).token then
    expect (.sign ")")
    return ⟨.other, line⟩
  let f ← rules (.statement grouped)
  if f.shape == .targets then
    expectCloser (.sign ")")
    return ⟨.targets, line⟩
  else
    if ← acceptTerminator then statements rules
    expect (.sign ")")
    return ⟨.other, line⟩

/-- Reads what follows an opening parenthesis that a blank parts from a name. It is an argument
of the name, and a brace behind it opens a block for the name. -/
def parenthesizedArgument (rules : Rules) (line : Nat) : Parse Form := do
  if !(← nextIs (.sign ")")) then discard (rules (.statement false))
  discard peek
  setMode (.plain .afterArgument)
  expectCloser (.sign ")")
  return ⟨.other, line⟩

/-- Reads what follows a word that leaves its place. A class outside of methods and blocks is not
left. -/
def leaveWord (word : String) (line : Nat) : Parse Form := do
  let s ← get
  let inBlock := s.scopes.head?.any (·.isBlock)
  if word == "return" && s.surroundings.inClass && !s.surroundings.inMethod && !inBlock then
    failAt line
  else return ⟨.jump, line⟩

def wordPrimary (rules : Rules) (word : String) (line : Nat) : Parse Form := do
  let other : Form := ⟨.other, line⟩
  match word with
  | "nil" | "self" | "true" | "false" | "__FILE__" | "__LINE__" | "__ENCODING__" =>
    return ⟨.fixedName, line⟩
  | "super" => named rules .predicate line
  | "yield" =>
    match ← parenArguments? rules with
    | some true => failAt line
    | some false => return other
    | none => return ⟨.yielded, line⟩
  | "return" | "break" | "next" => leaveWord word line
  | "redo" | "retry" => return other
  | "begin" => bodyToEnd rules; return other
  | "if" => conditional rules; return other
  | "unless" => negatedConditional rules; return other
  | "while" | "until" => loop rules; return other
  | "for" => elementLoop rules; return other
  | "case" => choice rules; return other
  | "class" => classDefinition rules line; return other
  | "module" => moduleDefinition rules line; return other
  | "def" => methodDefinition rules line
  | "not" | "defined?" =>
    expect (.sign "(")
    if word == "not" && (← accept (.sign ")")) then return other
    discard (rules (.expression .expression false))
    expectCloser (.sign ")")
    return other
  | _ => failAt line

def primaryStart (rules : Rules) (grouped : Bool) : Parse Form := do
  let lexeme ← advance
  let line := lexeme.line
  let other : Form := ⟨.other, line⟩
  match lexeme.token with
  | .name text => localOrCall rules text line
  | .predicate _ => named rules .predicate line
  | .constant _ => named rules .constant line
  | .instanceVariable | .classVariable | .globalVariable => return ⟨.variable, line⟩
  | .matchReference => return ⟨.matchReference, line⟩
  | .number | .character => return other
  | .symbolMark =>
    symbolName
    return other
  | .quote q =>
    let f ← quotedLiteral rules q line
    if q.content == .text && f.shape != .label then adjacentTexts rules
    return f
  | .heredoc h =>
    let f ← heredocText rules h line
    adjacentTexts rules
    return f
  | .leading "(" => parenthesized rules grouped line
  | .argumentParen => parenthesizedArgument rules line
  | .leading "[" =>
    arrayElements rules
    return other
  | .hashBrace =>
    hashPairs rules
    return other
  | .leading "::" =>
    let next ← advance
    match next.token with
    | .constant _ => return ⟨.constantPath, next.line⟩
    | _ => failAt next.line
  | .lambdaArrow =>
    lambda rules
    return other
  | .word word => wordPrimary rules word line
  | _ => failAt line

def dottedMember (rules : Rules) : Parse Form := do
  if ← nextIs (.sign "(") then named rules .other (← peek).line
  else
    let lexeme ← advance
    match lexeme.token with
    | .name _ | .constant _ => named rules (.member true false) lexeme.line
    | t =>
      if (methodName? t).isSome then named rules (.member false false) lexeme.line
      else failAt lexeme.line

/-- Reads the name of a member behind a scope sign. A capital letter makes it a constant, unless
arguments follow. -/
def scopedMember (rules : Rules) : Parse Form := do
  if ← nextIs (.sign "(") then named rules .other (← peek).line
  else
    let lexeme ← advance
    match lexeme.token with
    | .constant _ => named rules .constantPath lexeme.line
    | .name _ => named rules (.member true true) lexeme.line
    | t =>
      if (methodName? t).isSome then named rules (.member false true) lexeme.line
      else failAt lexeme.line

def callBlock (rules : Rules) (f : Form) (read : Rules → Parse Unit) : Parse Form := do
  if f.shape == .call true then failAt f.line
  discard advance
  read rules
  return ⟨.other, f.line⟩

def primaryStep (rules : Rules) (f : Form) : Parse (Option Form) := do
  if f.shape == .label || f.shape == .targets then return none
  let lexeme ← peek
  match lexeme.token with
  | .sign "." | .sign "&." =>
    discard (needValue f)
    discard advance
    return some (← dottedMember rules)
  | .sign "::" =>
    discard (needValue f)
    discard advance
    return some (← scopedMember rules)
  | .sign "[" =>
    discard (needValue f)
    discard advance
    discard (enclosedArguments rules (.sign "]"))
    return some ⟨.element, lexeme.line⟩
  | .blockBrace =>
    if f.shape.takesBlock then return some (← callBlock rules f braceBlock) else return none
  | .doWord .call =>
    if f.shape.takesBlock then return some (← callBlock rules f doBlock) else return none
  | _ => return none

def primaryRule (rules : Rules) (grouped : Bool) : Parse Form := do
  repeatFrom (primaryStep rules) (← primaryStart rules grouped)

end RubyScaffold.Grammar
