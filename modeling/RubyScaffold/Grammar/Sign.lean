import RubyScaffold.Grammar.Numeral
import RubyScaffold.Grammar.State

/-!
The signs of a document, among them the opening signs of quoted literals. What a sign is depends
on what the text so far makes of it and on the blanks around it.
-/

set_option autoImplicit false

namespace RubyScaffold.Grammar

def emit (length : Nat) (behind : Mode) (t : Token) : Parse Token := do
  modify fun s => (s.skip length).setMode behind
  return t

def emitTo (rest : List Char) (behind : Mode) (t : Token) : Parse Token := do
  modify fun s => { s with rest := rest, lineStart := false, mode := behind }
  return t

def goesOnBlank (text : List Char) : Bool :=
  text.head?.any isGap

def partner? : Char → Option Char
  | '(' => some ')'
  | '[' => some ']'
  | '{' => some '}'
  | '<' => some '>'
  | _ => none

def plainQuote (content : Content) (closer : Char) (interpolates mayBeLabel : Bool) : Quote :=
  ⟨content, closer, none, interpolates, mayBeLabel⟩

def percentKind? : Char → Option (Content × Bool)
  | 'Q' => some (.text, true)
  | 'q' => some (.text, false)
  | 'W' | 'I' => some (.wordList, true)
  | 'w' | 'i' => some (.wordList, false)
  | 'x' => some (.shell, true)
  | 'r' => some (.pattern, true)
  | 's' => some (.symbol, false)
  | _ => none

/-- Reads the opening sign of a literal with a percent sign: an optional letter, then any ASCII
sign that is neither a letter nor a digit. -/
def scanPercentQuote : Parse Token := do
  let s ← get
  let (letter, rest) :=
    match s.rest with
    | '%' :: c :: rest => if c.isAlphanum then (c, rest) else ('Q', c :: rest)
    | _ => ('Q', [])
  match percentKind? letter, rest with
  | some (content, interpolates), c :: _ =>
    if c.isAlphanum || 128 ≤ c.toNat then failHere
    else
      let quote : Quote := match partner? c with
        | some closer => ⟨content, closer, some c, interpolates, false⟩
        | none => plainQuote content c interpolates false
      match { s with rest := rest, lineStart := false }.next? with
      | some (_, s) => set s
      | none => pure ()
      return .quote quote
  | _, _ => failHere

/-- The name of a text that starts on the next line, and what follows it. The name may be quoted,
and single quotes keep code in the text from being run. -/
def heredocName? (indented : Bool) : List Char → Option (Heredoc × List Char)
  | c :: rest =>
    if c == '"' || c == '\'' || c == '`' then
      let name := rest.takeWhile fun d => d != c && d != '\n'
      match rest.drop name.length with
      | d :: behind => if d == c then some (⟨name, indented, c != '\''⟩, behind) else none
      | [] => none
    else
      let name := (c :: rest).takeWhile isNameChar
      if name.isEmpty then none
      else some (⟨name, indented, true⟩, (c :: rest).drop name.length)
  | [] => none

def heredoc? : List Char → Option (Heredoc × List Char)
  | '<' :: '<' :: '~' :: rest => heredocName? true rest
  | '<' :: '<' :: '-' :: rest => heredocName? true rest
  | '<' :: '<' :: rest => heredocName? false rest
  | _ => none

/-- The signs that stand between two values or name a method, longer ones first. -/
def plainSigns : List String :=
  ["<=>", "===", "==", "=~", "=>", "!=", "!~", "<=", ">=", "<<", ">>", "**", "=", "<", ">", "*",
    "&", "^", "/", "%", "!", "~"]

/-- The signs that, with an equals sign behind them, change what a name stands for. -/
def changingSigns : List String :=
  ["**", "<<", ">>", "&&", "||", "*", "&", "|", "^", "/", "%", "+", "-"]

def changingSign? (text : List Char) : Option Nat :=
  (changingSigns.find? fun sign => (sign ++ "=").toList.isPrefixOf text).map (·.length + 1)

def scanPlainSign : Parse Token := do
  let s ← get
  match plainSigns.find? fun sign => sign.toList.isPrefixOf s.rest with
  | none => failHere
  | some sign =>
    if s.mode.namesMethod && (sign == "!" || sign == "~") && s.rest[1]? == some '@' then
      emit 2 s.mode.behindSign (.sign sign)
    else emit sign.length s.mode.behindSign (.sign sign)

/-- Reads a sign that either stands between two values or in front of one. -/
def scanEither (sign : String) (blankBefore : Bool) : Parse Token := do
  let s ← get
  let length := sign.length
  if s.mode.beginsValue || s.mode.opensArgument blankBefore (goesOnBlank (s.rest.drop length)) then
    emit length s.mode.behindSign (.leading sign)
  else emit length s.mode.behindSign (.sign sign)

/-- Reads a plus or a minus sign, which may be the sign of a numeral or the name of a method. -/
def scanPlusMinus (sign : Char) (blankBefore : Bool) : Parse Token := do
  let s ← get
  let rest := s.rest.drop 1
  let text := String.singleton sign
  if s.mode.namesMethod then
    emit (if rest.head? == some '@' then 2 else 1) s.mode.behindSign (.sign text)
  else if sign == '-' && rest.head? == some '>' then
    emit 2 (.plain .afterParen) .lambdaArrow
  else if s.mode.beginsValue || s.mode.opensArgument blankBefore (goesOnBlank rest) then
    if rest.head?.any Char.isDigit then
      match afterNumeral rest with
      | none => failHere
      | some behind => emitTo behind .operator .number
    else emit 1 .value (.leading text)
  else emit 1 .value (.sign text)

def scanDots : Parse Token := do
  let s ← get
  match s.rest with
  | '.' :: '.' :: '.' :: _ =>
    if s.surroundings.inParameters then emit 3 (.plain .afterArgument) (.leading "...")
    else emit 3 .value (if s.mode.beginsValue then .leading "..." else .sign "...")
  | '.' :: '.' :: _ =>
    emit 2 .value (if s.mode.beginsValue then .leading ".." else .sign "..")
  | '.' :: c :: _ =>
    if c.isDigit then failHere else emit 1 (.plain .memberName) (.sign ".")
  | _ => emit 1 (.plain .memberName) (.sign ".")

def scanColons (blankBefore : Bool) : Parse Token := do
  let s ← get
  match s.rest with
  | ':' :: ':' :: _ =>
    if s.mode.beginsValue || (s.mode.mayTakeArgument && blankBefore) then
      emit 2 .value (.leading "::")
    else emit 2 (.plain .memberName) (.sign "::")
  | ':' :: c :: _ =>
    if s.mode.ended || isGap c || c == '#' then emit 1 .value (.sign ":")
    else if c == '"' then emit 2 .operator (.quote (plainQuote .symbol '"' true false))
    else if c == '\'' then emit 2 .operator (.quote (plainQuote .symbol '\'' false false))
    else emit 1 (.plain .methodName) .symbolMark
  | _ => emit 1 .value (.sign ":")

def scanAmpersand (blankBefore : Bool) : Parse Token := do
  match (← get).rest with
  | '&' :: '&' :: _ => emit 2 .value (.sign "&&")
  | '&' :: '.' :: _ => emit 2 (.plain .memberName) (.sign "&.")
  | _ => scanEither "&" blankBefore

/-- Reads a sign of bars. Where a value begins, two bars are an empty list of parameters. -/
def scanBars : Parse Token := do
  let s ← get
  match s.rest with
  | '|' :: '|' :: _ =>
    if s.mode.expects == .value then emit 1 .value (.sign "|") else emit 2 .value (.sign "||")
  | _ =>
    emit 1 (if s.mode.namesMethod then .plain .argument else .valueOrLabel) (.sign "|")

def scanLess (blankBefore : Bool) : Parse Token := do
  let s ← get
  let m := s.mode
  let mayBeText := m.expects != .memberName && m.expects != .className && !m.ended &&
    (!m.mayTakeArgument || m.labelled || blankBefore)
  match if mayBeText then heredoc? s.rest else none with
  | some (h, behind) => emitTo behind .operator (.heredoc h)
  | none =>
    modify fun s => { s with statementStart := m.expects == .className }
    match s.rest with
    | '<' :: '<' :: '=' :: _ => emit 3 .value .assignment
    | _ => scanPlainSign

def scanParen (blankBefore : Bool) : Parse Token := do
  let s ← get
  let m := s.mode
  modify State.openBracket
  emit 1 .valueOrLabel (
    if m.beginsValue then .leading "("
    else if blankBefore && (m.mayTakeArgument || m == .operatorOrLabel) then .argumentParen
    else .sign "(")

def scanSquareBracket (blankBefore : Bool) : Parse Token := do
  let s ← get
  let m := s.mode
  if m.namesMethod then
    match s.rest with
    | '[' :: ']' :: '=' :: _ => emit 3 (.plain .argument) (.sign "[]=")
    | '[' :: ']' :: _ => emit 2 (.plain .argument) (.sign "[]")
    | _ =>
      modify State.openBracket
      emit 1 ⟨.argument, true, false, false⟩ (.sign "[")
  else
    modify State.openBracket
    emit 1 .valueOrLabel (
      if m.beginsValue || (m.mayTakeArgument && (blankBefore || m.labelled)) then .leading "["
      else .sign "[")

def scanBrace : Parse Token := do
  let s ← get
  let m := s.mode
  let token : Token :=
    if s.atLambdaBody then .lambdaBrace
    else if m.labelled then .hashBrace
    else if m.expects == .afterArgument then .argumentBrace
    else if m.mayTakeArgument || m.ended then .blockBrace
    else .hashBrace
  modify State.openBracket
  if token == .hashBrace then emit 1 .valueOrLabel token
  else
    modify fun s => { s with statementStart := true }
    emit 1 .value token

def scanCloser (behind : Mode) (t : Token) : Parse Token := do
  modify State.closeBracket
  emit 1 behind t

def scanQuestion : Parse Token := do
  let s ← get
  if s.mode.ended then emit 1 .value (.sign "?")
  else
    match s.rest.drop 1 with
    | [] => failHere
    | '\\' :: rest =>
      match afterEscape 8 rest with
      | some behind => emitTo behind .operator .character
      | none => failHere
    | c :: rest =>
      if isGap c || ((c.isAlphanum || c == '_') && rest.head?.any isNameChar) then
        emit 1 .value (.sign "?")
      else emit 2 .operator .character

def scanBackquote (statementStart : Bool) : Parse Token := do
  let s ← get
  match s.mode.expects with
  | .methodName => emit 1 (.plain .afterParen) (.sign "`")
  | .memberName =>
    emit 1 (.plain (if statementStart then .commandArgument else .argument)) (.sign "`")
  | _ => emit 1 .operator (.quote (plainQuote .shell '`' true false))

def scanSlash (blankBefore : Bool) : Parse Token := do
  let s ← get
  let m := s.mode
  let opens := m.beginsValue ||
    (m.opensArgument blankBefore (goesOnBlank (s.rest.drop 1)) && s.rest[1]? != some '=')
  if opens then emit 1 .operator (.quote (plainQuote .pattern '/' true false))
  else if s.rest[1]? == some '=' then emit 2 .value .assignment
  else scanPlainSign

def scanPercent (blankBefore : Bool) : Parse Token := do
  let s ← get
  let m := s.mode
  if m.beginsValue then scanPercentQuote
  else if s.rest[1]? == some '=' then emit 2 .value .assignment
  else if m.opensArgument blankBefore (goesOnBlank (s.rest.drop 1)) ||
      (m.item && s.rest[1]? == some 's') then scanPercentQuote
  else scanPlainSign

def scanAt : Parse Token := do
  let s ← get
  let (token, rest) : Token × List Char :=
    match s.rest with
    | '@' :: '@' :: rest => (.classVariable, rest)
    | text => (.instanceVariable, text.drop 1)
  match rest with
  | c :: _ =>
    if beginsName c then
      let behind := rest.dropWhile isNameChar
      emitTo behind
        (.plain (if s.mode.expects == .methodName then .afterParen else .operator)) token
    else failHere
  | [] => failHere

def scanDollar : Parse Token := do
  let s ← get
  let named : Mode := .plain (if s.mode.expects == .methodName then .afterParen else .operator)
  let matched : Token := if s.mode.expects == .methodName then .globalVariable else .matchReference
  match s.rest.drop 1 with
  | [] => failHere
  | '-' :: rest =>
    if rest.head?.any isNameChar then emit 3 .operator .globalVariable
    else emit 2 .operator .globalVariable
  | c :: rest =>
    if "~*$?!@/\\;,.=:<>\"".toList.contains c then emit 2 .operator .globalVariable
    else if "&`'+".toList.contains c then emit 2 .operator matched
    else if c.isDigit && c != '0' then
      emit (2 + (rest.takeWhile Char.isDigit).length) .operator matched
    else if isNameChar c then
      emit (2 + (rest.takeWhile isNameChar).length) named .globalVariable
    else failHere

end RubyScaffold.Grammar
