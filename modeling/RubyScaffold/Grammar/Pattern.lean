import RubyScaffold.Grammar.Body

/-!
The patterns that values are matched against, and the choices between branches.
-/

set_option autoImplicit false

namespace RubyScaffold.Grammar

/-- Binds a name in a pattern, once unless it begins with an underscore. -/
def bindName (name : String) (line : Nat) : Parse Unit := do
  let taken := (← get).boundNames.contains name
  if isNumbered name || (taken && name.front != '_') then failAt line
  modify fun s => { s with boundNames := name :: s.boundNames }
  declare name

def boundName : Parse Unit := do
  let lexeme ← advance
  match lexeme.token with
  | .name text => bindName text lexeme.line
  | _ => failAt lexeme.line

def starredName : Parse Unit := do
  if let .name _ := (← peek).token then boundName

def beginsPlainValue : Token → Bool
  | .number | .character | .symbolMark | .quote _ | .heredoc _ | .lambdaArrow => true
  | .word text =>
    ["__ENCODING__", "__FILE__", "__LINE__", "false", "nil", "self", "true"].contains text
  | _ => false

def beginsPattern (t : Token) : Bool :=
  beginsPlainValue t || match t with
  | .name _ | .constant _ | .hashBrace => true
  | .sign text => text == "^"
  | .leading text => ["(", "[", "::", "..", "..."].contains text
  | _ => false

/-- One of the patterns of a list: a value, the other values, a pair with its key, or the other
pairs. -/
inductive PatternItem where
  | value | rest | pair (key : String) | restOfPairs
  deriving DecidableEq, Repr

def PatternItem.isPositional : PatternItem → Bool
  | .value | .rest => true
  | .pair _ | .restOfPairs => false

/-- The patterns of a list up to some place, as far as what may follow depends on them. -/
inductive PatternRow where
  | empty
  | values
  | rest
  /-- Values stand before a rest, which cannot come again. -/
  | aroundRest
  /-- Values stand behind a rest, which may come once more. -/
  | behindRest
  | betweenRests
  | pairs (keys : List String)
  | closed
  deriving DecidableEq, Repr

def PatternRow.add? : PatternRow → PatternItem → Option PatternRow
  | .empty, .value | .values, .value => some .values
  | .empty, .rest => some .rest
  | .values, .rest | .aroundRest, .value => some .aroundRest
  | .rest, .value | .behindRest, .value => some .behindRest
  | .behindRest, .rest => some .betweenRests
  | .empty, .pair key => some (.pairs [key])
  | .pairs keys, .pair key => if keys.contains key then none else some (.pairs (key :: keys))
  | .empty, .restOfPairs | .pairs _, .restOfPairs => some .closed
  | _, _ => none

def PatternRow.endsInComma : PatternRow → Bool
  | .values | .pairs _ => true
  | _ => false

def subpattern (rules : Rules) : Parse Unit := do
  let f ← rules .pattern
  if f.shape == .label then failAt f.line

/-- Reads the pattern behind a key. Without one, the key is bound as a name. -/
def pairPattern (rules : Rules) (key : String) (line : Nat) : Parse PatternItem := do
  let isVariable := namesKeyword key && beginsName key.front && key.toList.all isNameChar
  if beginsPattern (← peek).token then subpattern rules
  else if isVariable then bindName key line
  else failAt line
  return .pair key

def patternItem (rules : Rules) : Parse PatternItem := do
  let lexeme ← peek
  match lexeme.token with
  | .leading "*" | .sign "*" =>
    discard advance
    starredName
    return .rest
  | .leading "**" | .sign "**" =>
    discard advance
    if !(← accept (.word "nil")) then starredName
    return .restOfPairs
  | .label text =>
    discard advance
    pairPattern rules text lexeme.line
  | _ =>
    -- a quoted text may turn out to be a key, between its opening quote and `":`
    let front := (← get).rest
    let f ← rules .pattern
    if f.shape == .label then
      let key := front.take (front.length - (← get).rest.length - 2)
      pairPattern rules (String.ofList key) f.line
    else return .value

def beginsPatternItem : Token → Bool
  | .label _ => true
  | .leading "*" | .leading "**" | .sign "*" | .sign "**" => true
  | t => beginsPattern t

def patternList (rules : Rules) (allowed : PatternItem → Bool) : Parse Unit := do
  let step (row : PatternRow) : Parse (Option PatternRow) := do
    let lexeme ← peek
    if !beginsPatternItem lexeme.token then
      if row.endsInComma then return none else unexpected
    let item ← patternItem rules
    match row.add? item with
    | none => failAt lexeme.line
    | some row =>
      if !allowed item then failAt lexeme.line
      return if ← accept (.sign ",") then some row else none
  discard (repeatFrom step .empty)

def enclosedPatterns (rules : Rules) (allowed : PatternItem → Bool) (closer : Token) :
    Parse Unit :=
  within (fun outer => { outer with inLabelList := false }) do
    if beginsPatternItem (← peek).token then patternList rules allowed
    expectCloser closer

def constantPattern (rules : Rules) : Parse Unit := do
  repeatWhile do
    if ← accept (.sign "::") then
      let lexeme ← advance
      match lexeme.token with
      | .constant _ => return true
      | _ => failAt lexeme.line
    else return false
  if ← accept (.sign "(") then enclosedPatterns rules (fun _ => true) (.sign ")")
  else if ← accept (.sign "[") then enclosedPatterns rules (fun _ => true) (.sign "]")

def pinnedValue (rules : Rules) : Parse Unit := do
  let lexeme ← advance
  match lexeme.token with
  | .name text => if !isDeclared text (← get).scopes then failAt lexeme.line
  | .instanceVariable | .classVariable | .globalVariable => pure ()
  | .leading "(" | .sign "(" | .argumentParen =>
    expressionValue rules
    expectCloser (.sign ")")
  | _ => failAt lexeme.line

def rangeEnd (rules : Rules) : Parse Unit := do
  if !beginsPlainValue (← peek).token then unexpected
  let f ← rules .literal
  if f.shape == .label then failAt f.line

/-- Reads a value as it is written, or a range that begins with it. -/
def plainValue (rules : Rules) : Parse Form := do
  if !beginsPlainValue (← peek).token then unexpected
  let f ← rules .literal
  if f.shape == .label then return f
  if (← accept (.sign "..")) || (← accept (.sign "...")) then
    if beginsPlainValue (← peek).token then rangeEnd rules
  return ⟨.other, f.line⟩

def simplePattern (rules : Rules) : Parse Form := do
  let lexeme ← peek
  match lexeme.token with
  | .name _ => boundName
  | .leading "[" =>
    discard advance
    enclosedPatterns rules PatternItem.isPositional (.sign "]")
  | .hashBrace =>
    discard advance
    enclosedPatterns rules (!·.isPositional) .closeBrace
  | .leading "(" =>
    discard advance
    within (fun outer => { outer with inLabelList := false }) do
      subpattern rules
      expectCloser (.sign ")")
  | .constant _ =>
    discard advance
    constantPattern rules
  | .leading "::" =>
    discard advance
    if let .constant _ := (← peek).token then discard advance else unexpected
    constantPattern rules
  | .sign "^" =>
    discard advance
    pinnedValue rules
  | .leading ".." | .leading "..." =>
    discard advance
    rangeEnd rules
  | _ => return ← plainValue rules
  return ⟨.other, lexeme.line⟩

/-- Reads a pattern: alternatives, then the names that keep what they match. A label is left to
the list that it stands in. -/
def patternRule (rules : Rules) : Parse Form := do
  let f ← simplePattern rules
  if f.shape == .label then return f
  repeatWhile do
    if ← accept (.sign "|") then
      let f ← simplePattern rules
      if f.shape == .label then failAt f.line
      return true
    else return false
  repeatWhile do
    if ← accept (.sign "=>") then
      boundName
      return true
    else return false
  return f

def outerPattern (rules : Rules) : Parse Unit :=
  bindingNames do
    patternList rules fun _ => true

def guardedPattern (rules : Rules) : Parse Unit := do
  within (fun outer => { outer with inLabelList := true }) do
    outerPattern rules
    if (← accept (.modifier "if")) || (← accept (.modifier "unless")) then expressionValue rules
    discard peek
  expectThen

def choiceBranches (rules : Rules) : Parse Unit := do
  let byPattern ← nextIs (.word "in")
  let branchWord := if byPattern then "in" else "when"
  if !(← nextIs (.word branchWord)) then unexpected
  repeatWhile do
    if !(← nextIs (.word branchWord)) then return false
    if byPattern then
      modify fun s => { s with mode := .valueOrLabel, statementStart := false }
      discard advance
      guardedPattern rules
    else
      discard advance
      valueList rules
      expectThen
    statements rules
    return true
  if ← accept (.word "else") then statements rules
  expectWord "end"

def choice (rules : Rules) : Parse Unit := do
  let t := (← peek).token
  if t != .word "when" && t != .sign ";" then expressionValue rules
  skipTerminators
  choiceBranches rules

end RubyScaffold.Grammar
