import RubyScaffold.Grammar.Rule

/-!
Quoted literals and texts that start on the next line, read character by character. Code that is
run inside of them is read by the rules.
-/

set_option autoImplicit false

namespace RubyScaffold.Grammar

def takeChar : Parse (Option Char) := do
  match (← get).next? with
  | none => return none
  | some (c, s) =>
    set s
    return some c

def escape : Parse Unit := do
  let s ← get
  match s.rest with
  | '\n' :: _ | '\r' :: '\n' :: _ => discard takeChar
  | _ =>
    match afterEscape 8 s.rest with
    | some behind => set { s with rest := behind, lineStart := false }
    | none => failHere

/-- Reads code that is run inside a literal, behind its opening brace. What is known of the
brackets around the literal does not count inside. -/
def embeddedCode (rules : Rules) : Parse Unit := do
  let outer ← get
  set { outer with
    mode := .value, statementStart := true, loops := [], commands := [], lambdaDepth := none }
  discard (rules .statements)
  expect .closeBrace
  modify fun s => { s with
    mode := outer.mode, depth := outer.depth, loops := outer.loops, commands := outer.commands,
    lambdaDepth := outer.lambdaDepth }

def quotedContent (rules : Rules) (q : Quote) : Parse Unit := do
  let step (nested : Nat) : Parse (Option Nat) := do
    match ← takeChar with
    | none => failHere
    | some '\\' =>
      if q.interpolates && q.content != .pattern then escape
      else discard takeChar
      return some nested
    | some '#' =>
      if q.closer == '#' then return none
      else if q.interpolates && (← get).rest.head? == some '{' then
        discard takeChar
        embeddedCode rules
      return some nested
    | some c =>
      if c == q.closer then return if nested == 0 then none else some (nested - 1)
      else if q.opener == some c then return some (nested + 1)
      else return some nested
  discard (repeatFrom step 0)

def patternOptions : Parse Unit := do
  let s ← get
  let letters := s.rest.takeWhile Char.isAlpha
  if letters.all ("imxonesu".toList.contains ·) then set (s.skip letters.length) else failHere

/-- Reads a quoted literal behind its opening sign. With a colon behind it, it may be a label. -/
def quotedLiteral (rules : Rules) (q : Quote) (line : Nat) : Parse Form := do
  quotedContent rules q
  if q.content == .pattern then patternOptions
  setMode .operator
  let s ← get
  if q.mayBeLabel && goesOnWithColon s.rest then
    set ((s.skip 1).setMode .behindLabel)
    return ⟨.label, line⟩
  else return ⟨.other, line⟩

def endsHeredoc (h : Heredoc) (text : List Char) : Bool :=
  isWholeLine h.name (if h.indented then text.dropWhile isInlineBlank else text)

/-- Reads a text that starts on the next line. The rest of the current line is read afterwards,
and what follows it stands behind the text. -/
def heredocText (rules : Rules) (h : Heredoc) (line : Nat) : Parse Form := do
  let outer ← get
  set { outer.endLine with resume := none }
  repeatWhile do
    let s ← get
    if s.lineStart && endsHeredoc h s.rest then return false
    match ← takeChar with
    | none => failAt line
    | some '\\' =>
      if h.interpolates then
        escape
        modify fun s => { s with lineStart := false }
    | some '#' =>
      if h.interpolates && (← get).rest.head? == some '{' then
        discard takeChar
        embeddedCode rules
    | some _ => pure ()
    return true
  let behind := (← get).endLine
  set { behind with
    rest := outer.rest, line := outer.line, lineStart := false, peeked := none,
    resume := some (behind.rest, behind.line) }
  setMode .operator
  return ⟨.other, line⟩

def adjacentTexts (rules : Rules) : Parse Unit :=
  repeatWhile do
    let lexeme ← peek
    match lexeme.token with
    | .quote q =>
      if q.content == .text then
        discard advance
        discard (quotedLiteral rules q lexeme.line)
        return true
      else return false
    | .heredoc h =>
      discard advance
      discard (heredocText rules h lexeme.line)
      return true
    | _ => return false

end RubyScaffold.Grammar
