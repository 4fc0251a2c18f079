import RubyScaffold.Grammar.Character

/-!
Numerals and the escapes of quoted text. Each function answers with what stands behind, or with
nothing if the text is malformed.
-/

set_option autoImplicit false

namespace RubyScaffold.Grammar

/-- What follows a run of digits, between any two of which one underscore may stand. The flag
says whether a digit has just been read. -/
def afterDigits (isDigit : Char → Bool) : Bool → List Char → Option (List Char)
  | behindDigit, [] => if behindDigit then some [] else none
  | behindDigit, c :: rest =>
    if isDigit c then afterDigits isDigit true rest
    else if behindDigit then
      if c == '_' then afterDigits isDigit false rest else some (c :: rest)
    else none

/-- What follows the letters that make a number rational or imaginary, unless they begin a name. -/
def afterNumberKind (text : List Char) : List Char :=
  let rest :=
    match text with
    | 'r' :: 'i' :: rest => rest
    | 'r' :: rest => rest
    | 'i' :: rest => rest
    | _ => text
  match rest with
  | c :: _ => if beginsName c then text else rest
  | [] => rest

def afterExponent : List Char → Option (List Char)
  | e :: sign :: rest =>
    if e == 'e' || e == 'E' then
      if sign == '+' || sign == '-' then afterDigits Char.isDigit false rest
      else if sign.isDigit then afterDigits Char.isDigit true rest
      else some (e :: sign :: rest)
    else some (e :: sign :: rest)
  | text => some text

def afterFraction : List Char → Option (List Char)
  | '.' :: c :: rest =>
    if c.isDigit then (afterDigits Char.isDigit true rest).bind afterExponent
    else some ('.' :: c :: rest)
  | text => afterExponent text

def afterOctal (text : List Char) : Option (List Char) :=
  match afterDigits isOctalDigit false text with
  | some (c :: rest) => if c.isDigit then none else some (c :: rest)
  | other => other

/-- What follows the numeral at the front. A zero in front announces another base. -/
def afterNumeral (text : List Char) : Option (List Char) :=
  let whole :=
    match text with
    | '0' :: c :: rest =>
      if c == 'x' || c == 'X' then afterDigits isHexDigit false rest
      else if c == 'b' || c == 'B' then afterDigits (fun d => d == '0' || d == '1') false rest
      else if c == 'd' || c == 'D' then afterDigits Char.isDigit false rest
      else if c == 'o' || c == 'O' then afterOctal rest
      else if c == '_' then afterOctal rest
      else if c.isDigit then afterOctal (c :: rest)
      else afterFraction (c :: rest)
    | text => (afterDigits Char.isDigit false text).bind afterFraction
  whole.map afterNumberKind

/-- What follows the code points of an escape in braces: up to six hexadecimal digits each,
parted by blanks. -/
def afterCodePoints (text : List Char) : Option (List Char) :=
  let body := text.takeWhile fun c => isHexDigit c || c == ' ' || c == '\t'
  let groups := (body.splitBy fun a b => isHexDigit a == isHexDigit b).filter
    (·.all isHexDigit)
  match text.drop body.length with
  | '}' :: rest => if groups.isEmpty || groups.any (6 < ·.length) then none else some rest
  | _ => none

/-- What follows an escape behind its backslash, in text in which escapes count. Modifier
escapes may stack, and each reads at least two characters. -/
def afterEscape : Nat → List Char → Option (List Char)
  | 0, _ => none
  | _, [] => none
  | fuel + 1, c :: rest =>
    if c == 'u' then
      match rest with
      | '{' :: rest => afterCodePoints rest
      | _ =>
        let digits := (rest.take 4).takeWhile isHexDigit
        if digits.length == 4 then some (rest.drop 4) else none
    else if c == 'x' then
      let digits := (rest.take 2).takeWhile isHexDigit
      if digits.isEmpty then none else some (rest.drop digits.length)
    else if isOctalDigit c then
      some (rest.drop ((rest.take 2).takeWhile isOctalDigit).length)
    else if c == 'c' then afterControlled fuel rest
    else if c == 'C' || c == 'M' then
      match rest with
      | '-' :: rest => afterControlled fuel rest
      | _ => none
    else some rest
where
  /-- What follows the character that a modifier changes. -/
  afterControlled (fuel : Nat) : List Char → Option (List Char)
    | '\\' :: rest => afterEscape fuel rest
    | _ :: rest => some rest
    | [] => none

end RubyScaffold.Grammar
