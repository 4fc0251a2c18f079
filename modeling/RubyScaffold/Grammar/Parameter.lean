import RubyScaffold.Grammar.Rule
import RubyScaffold.Unicode.Lowercase

/-!
The parameters of methods, blocks and lambdas. They come in a fixed order of kinds, and no name
is taken twice unless it begins with an underscore.
-/

set_option autoImplicit false

namespace RubyScaffold.Grammar

/-- The kinds of parameters in the order in which they may stand. A required parameter behind an
optional or a rest parameter is a trailing one. -/
inductive ParameterKind where
  | required | optional | rest | trailing | keyword | keywordRest | block | forwarded
  deriving DecidableEq, Repr

/-- The kind of a parameter that is written as `written` and stands behind one of kind `before`,
or nothing if it may not stand there. -/
def ParameterKind.behind? (before written : ParameterKind) : Option ParameterKind :=
  match before, written with
  | .required, .required => some .required
  | .optional, .required | .rest, .required | .trailing, .required => some .trailing
  | .required, .optional | .optional, .optional => some .optional
  | .required, .rest | .optional, .rest => some .rest
  | .required, .keyword | .optional, .keyword | .rest, .keyword | .trailing, .keyword
  | .keyword, .keyword => some .keyword
  | .required, .keywordRest | .optional, .keywordRest | .rest, .keywordRest
  | .trailing, .keywordRest | .keyword, .keywordRest => some .keywordRest
  | .block, _ | .forwarded, _ => none
  | _, .block => some .block
  | .required, .forwarded | .optional, .forwarded | .rest, .forwarded
  | .trailing, .forwarded => some .forwarded
  | _, _ => none

/-- Where parameters stand, which decides what a default value may be. -/
inductive ParameterPlace where
  | method | block | lambda
  deriving DecidableEq, Repr

def declareParameter (name : String) (line : Nat) : Parse Unit := do
  let taken := (← get).scopes.head?.any (·.names.contains name)
  if taken && name.front != '_' then failAt line else declare name

def placedParameter (name : String) (line : Nat) : Parse Unit := do
  if isNumbered name then failAt line else declareParameter name line

/-- Whether a name may be that of a keyword parameter: it begins with an underscore or a small
letter and does not end with a question or exclamation mark. -/
def namesKeyword (name : String) : Bool :=
  match name.toList with
  | [] => false
  | c :: rest =>
    (c == '_' || Unicode.isLowercase c) &&
      !((c :: rest).getLast?.any fun d => d == '?' || d == '!')

def optionalName (unnamed : String) : Parse Unit := do
  let lexeme ← peek
  match lexeme.token with
  | .name text =>
    discard advance
    placedParameter text lexeme.line
  | _ => declare unnamed

/-- Reads a default value, in which the parameter itself must not occur. Between bars it goes no
further than a primary value. -/
def defaultValue (rules : Rules) (place : ParameterPlace) (name : String) : Parse Unit :=
  within (fun outer => { outer with parameter := some name }) do
    let f ← if place == .block then rules (.primary false)
      else rules (.operation 0 .argument false)
    discard (needValue f)

/-- Reads the parameters that one argument is taken apart into, behind their opening
parenthesis. Each nested pair of parentheses takes one from a number that no document uses up. -/
def destructuredParameter : Nat → Parse Unit
  | 0 => failHere
  | fuel + 1 => do
    repeatWhile do
      let lexeme ← advance
      match lexeme.token with
      | .leading "(" => destructuredParameter fuel
      | .name text => placedParameter text lexeme.line
      | .leading "*" => optionalName "*"
      | _ => failAt lexeme.line
      accept (.sign ",")
    expect (.sign ")")

def parameter (rules : Rules) (place : ParameterPlace) : Parse ParameterKind := do
  let lexeme ← advance
  match lexeme.token with
  | .name text =>
    placedParameter text lexeme.line
    if ← accept (.sign "=") then
      defaultValue rules place text
      return .optional
    else return .required
  | .label text =>
    if !namesKeyword text then failAt lexeme.line
    declareParameter text lexeme.line
    if beginsArgument (← peek).token then defaultValue rules place text
    return .keyword
  | .leading "(" =>
    destructuredParameter (← get).size
    return .required
  | .sign "*" | .leading "*" =>
    optionalName "*"
    return .rest
  | .sign "**" | .leading "**" =>
    if !(← accept (.word "nil")) then optionalName "**"
    return .keywordRest
  | .sign "&" | .leading "&" =>
    optionalName "&"
    return .block
  | .sign "..." | .leading "..." =>
    if place != .method then failAt lexeme.line
    ["*", "&", "..."].forM declare
    return .forwarded
  | _ => failAt lexeme.line

/-- Reads parameters up to a token that ends them. Between bars a comma may end them too. -/
def parameters (rules : Rules) (place : ParameterPlace) (closes : Token → Bool) : Parse Unit := do
  if closes (← peek).token then return ()
  let step (before : ParameterKind) : Parse (Option ParameterKind) := do
    let line := (← peek).line
    match before.behind? (← parameter rules place) with
    | none => failAt line
    | some kind =>
      if !(← accept (.sign ",")) then return none
      if closes (← peek).token then
        if place == .block && kind == .required then return none else unexpected
      return some kind
  discard (repeatFrom step .required)

def blockLocals : Parse Unit := do
  acceptLineEnd
  if ← accept (.sign ";") then
    repeatWhile do
      let lexeme ← advance
      match lexeme.token with
      | .name text => placedParameter text lexeme.line
      | _ => failAt lexeme.line
      accept (.sign ",")
    acceptLineEnd

def closesBlockParameters : Token → Bool
  | .sign text => text == "|" || text == ";"
  | .lineEnd => true
  | _ => false

def blockParameters (rules : Rules) : Parse Unit := do
  if ← accept (.sign "|") then
    within (fun outer => { outer with inParameters := true }) do
      parameters rules .block closesBlockParameters
      blockLocals
      if !(← nextIs (.sign "|")) then unexpected
    beginStatement
    discard advance

end RubyScaffold.Grammar
