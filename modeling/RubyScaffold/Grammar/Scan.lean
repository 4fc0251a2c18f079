import RubyScaffold.Grammar.Sign
import RubyScaffold.Naming.Keyword
import RubyScaffold.Unicode.Uppercase

/-!
The next token of a document. Blanks, comments and the line ends that mean nothing are passed
over, and the mode behind the token is set.
-/

set_option autoImplicit false

namespace RubyScaffold.Grammar

def isWholeLine (mark text : List Char) : Bool :=
  mark.isPrefixOf text &&
    match text.drop mark.length with
    | [] | '\n' :: _ | '\r' :: '\n' :: _ => true
    | _ => false

/-- Whether the current line begins with a mark and goes on with a blank, if at all. -/
def isMarkedLine (mark text : List Char) : Bool :=
  mark.isPrefixOf text && (text.drop mark.length).head?.all isGap

/-- Whether a line goes on with the statement of the line before, as it begins with a call. -/
def goesOnWithCall (text : List Char) : Bool :=
  match text.dropWhile isInlineBlank with
  | '&' :: '.' :: _ => true
  | '.' :: '.' :: _ => false
  | '.' :: _ => true
  | _ => false

def beginsWithComment (text : List Char) : Bool :=
  (text.dropWhile isInlineBlank).head? == some '#'

def State.endLine (s : State) : State :=
  let ended := { s with rest := s.rest.dropWhile (· != '\n'), lineStart := false }
  match ended.next? with
  | some (_, s) => s
  | none => ended

def skipBlockComment : Parse Unit := do
  modify State.endLine
  repeatWhile do
    let s ← get
    if s.rest.isEmpty then failHere
    let isLast := isMarkedLine "=end".toList s.rest
    set s.endLine
    return !isLast

def doOwner (s : State) : DoOwner :=
  if s.atLambdaBody then .lambda
  else if s.loops.head?.any id then .loop
  else if s.commands.head?.any id && s.mode.expects != .commandArgument then .command
  else .call

def scanWord (word : String) : Parse Token := do
  let s ← get
  let m := s.mode
  let length := word.length
  if m.expects == .methodName then emit length (.plain .afterParen) (.word word)
  else
    let behind := Mode.behindWord word
    if behind == .value then modify fun s => { s with statementStart := true }
    if word == "do" then
      let owner := doOwner s
      if owner == .lambda then modify fun s => { s with lambdaDepth := none }
      emit length behind (.doWord owner)
    else if m.expects == .value || m.expects == .className || m.labelled then
      emit length behind (.word word)
    else if modifierWords.contains word then emit length .valueOrLabel (.modifier word)
    else emit length behind (.word word)

/-- The name at the front, with the sign at its end that is part of it. -/
def nameAtFront (m : Mode) (text : List Char) : List Char :=
  let body := text.takeWhile isNameChar
  match text.drop body.length with
  | '!' :: rest => if rest.head? == some '=' then body else body ++ ['!']
  | '?' :: rest => if rest.head? == some '=' then body else body ++ ['?']
  | '=' :: rest =>
    let names := match rest with
      | '~' :: _ | '>' :: _ => false
      | '=' :: '>' :: _ => true
      | '=' :: _ => false
      | _ => true
    if m.expects == .methodName && names then body ++ ['='] else body
  | _ => body

def goesOnWithColon : List Char → Bool
  | ':' :: ':' :: _ => false
  | ':' :: _ => true
  | _ => false

def namesConstant (name : List Char) : Bool :=
  name.head?.any Unicode.isUppercase

def nameToken (name : List Char) : Token :=
  let text := String.ofList name
  if name.getLast?.any fun c => c == '!' || c == '?' then .predicate text
  else if namesConstant name && name.getLast? != some '=' then .constant text
  else .name text

def scanName (statementStart : Bool) : Parse Token := do
  let s ← get
  let m := s.mode
  let name := nameAtFront m s.rest
  let text := String.ofList name
  let length := name.length
  if m.allowsLabel statementStart && goesOnWithColon (s.rest.drop length) then
    emit (length + 1) .behindLabel (.label text)
  else if m.expects != .memberName && Naming.isKeyword text then scanWord text
  else
    let token := nameToken name
    let isLocal := match token with
      | .name text => !m.namesMethod && isDeclared text s.scopes
      | _ => false
    let behind : Mode :=
      if isLocal then .operatorOrLabel
      else if m.beginsValue || m.mayTakeArgument || m.expects == .memberName then
        .plain (if statementStart then .commandArgument else .argument)
      else if m.expects == .methodName then .plain .afterParen
      else .operator
    emit length behind token

def scanMark (c : Char) (blankBefore statementStart : Bool) : Parse Token := do
  let s ← get
  let m := s.mode
  let mayBeLabel := m.allowsLabel statementStart
  if ['*', '&', '|', '^', '+', '-', '>'].contains c && !m.namesMethod then
    if let some length := changingSign? s.rest then
      return ← emit length .value .assignment
  match c with
  | '*' => scanEither (if s.rest[1]? == some '*' then "**" else "*") blankBefore
  | '"' => emit 1 .operator (.quote (plainQuote .text '"' true mayBeLabel))
  | '\'' => emit 1 .operator (.quote (plainQuote .text '\'' false mayBeLabel))
  | '`' => scanBackquote statementStart
  | '?' => scanQuestion
  | '&' => scanAmpersand blankBefore
  | '|' => scanBars
  | '+' | '-' => scanPlusMinus c blankBefore
  | '.' => scanDots
  | ')' => scanCloser (.plain .afterParen) (.sign ")")
  | ']' => scanCloser .operator (.sign "]")
  | '}' => scanCloser .operator .closeBrace
  | ':' => scanColons blankBefore
  | '/' => scanSlash blankBefore
  | ';' =>
    modify fun s => { s with statementStart := true }
    emit 1 .value (.sign ";")
  | ',' => emit 1 .valueOrLabel (.sign ",")
  | '(' => scanParen blankBefore
  | '[' => scanSquareBracket blankBefore
  | '{' => scanBrace
  | '<' => scanLess blankBefore
  | '%' => scanPercent blankBefore
  | '$' => scanDollar
  | '@' => scanAt
  | _ =>
    if c.isDigit then
      match afterNumeral s.rest with
      | none => failHere
      | some behind => emitTo behind .operator .number
    else scanPlainSign

def scanHere (c : Char) (blankBefore : Bool) : Parse Token := do
  let statementStart := (← get).statementStart
  modify fun s => { s with statementStart := false }
  if beginsName c then scanName statementStart else scanMark c blankBefore statementStart

/-- Passes over one blank, comment or meaningless line end, or reads the token that begins here.
The flag says whether a blank has been passed over. -/
def scanStep (blankBefore : Bool) : Parse (Bool ⊕ Lexeme) := do
  let s ← get
  let found (t : Token) : Bool ⊕ Lexeme := .inr ⟨t, s.line⟩
  match s.rest with
  | [] => return found .endOfText
  | '\\' :: '\n' :: _ | '\\' :: '\r' :: '\n' :: _ =>
    modify State.endLine
    return .inl true
  | c :: _ =>
    if endsDocument c then return found .endOfText
    else if c == '\n' || ['\r', '\n'].isPrefixOf s.rest then
      let behind := s.endLine
      set behind
      if s.mode.skipsLineEnd s.surroundings.inLabelList then return .inl blankBefore
      else if goesOnWithCall behind.rest || beginsWithComment behind.rest then
        return .inl blankBefore
      else
        set { behind with mode := .value, statementStart := true }
        return found .lineEnd
    else if isInlineBlank c then
      set (s.skip 1)
      return .inl true
    else if c == '#' then
      set { s with rest := s.rest.dropWhile (· != '\n'), lineStart := false }
      return .inl blankBefore
    else if s.lineStart && isMarkedLine "=begin".toList s.rest then
      skipBlockComment
      return .inl blankBefore
    else if s.lineStart && isWholeLine "__END__".toList s.rest then return found .endOfText
    else return found (← scanHere c blankBefore)

def scan : Parse Lexeme := do
  let step : Bool ⊕ Lexeme → Parse (Option (Bool ⊕ Lexeme))
    | .inl blankBefore => do return some (← scanStep blankBefore)
    | .inr _ => return none
  match ← repeatFrom step (.inl false) with
  | .inr lexeme => return lexeme
  | .inl _ => failHere

end RubyScaffold.Grammar
