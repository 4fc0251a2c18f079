import RubyScaffold.Grammar.Character

/-!
The charset that a document names in the comment at its top.
-/

set_option autoImplicit false

namespace RubyScaffold.Grammar

def isKeyChar (c : Char) : Bool :=
  !isGap c && c != '\'' && c != '"' && c != ':' && c != ';'

def splitValue (text : List Char) : List Char × List Char :=
  match text with
  | '"' :: rest =>
    let value := rest.takeWhile (· != '"')
    (value, rest.drop (value.length + 1))
  | _ =>
    let value := text.takeWhile fun c => !isGap c && c != '"' && c != ';'
    (value, text.drop value.length)

/-- The pairs of a key and a value that make up a comment. Between marks there may be many and
other words among them; otherwise the comment is one pair and nothing else. -/
def settingPairs? (marked : Bool) : Nat → List Char → Option (List (List Char × List Char))
  | 0, _ => some []
  | fuel + 1, text =>
    let text := text.dropWhile (!isKeyChar ·)
    let key := text.takeWhile isKeyChar
    match (text.drop key.length).dropWhile isGap with
    | [] => some []
    | ':' :: rest =>
      match rest.dropWhile isGap with
      | [] => some []
      | found =>
        let (value, behind) := splitValue found
        if marked then
          (settingPairs? marked fuel (behind.dropWhile fun c => c == ';' || isGap c)).map
            ((key, value) :: ·)
        else if behind.all isGap then some [(key, value)] else none
    | rest => if marked then settingPairs? marked fuel rest else none

def behindMark? : List Char → Option (List Char)
  | '-' :: '*' :: '-' :: rest => some rest
  | _ :: rest => behindMark? rest
  | [] => none

def beforeMark? : List Char → Option (List Char)
  | '-' :: '*' :: '-' :: _ => some []
  | c :: rest => (beforeMark? rest).map (c :: ·)
  | [] => none

def betweenMarks? (comment : List Char) : Option (List Char) :=
  (behindMark? comment).bind beforeMark?

def commentSettings? (comment : List Char) : Option (List (List Char × List Char)) :=
  if comment.length ≤ 7 then none
  else
    match betweenMarks? comment with
    | some marked => settingPairs? true (comment.length + 1) marked
    | none => settingPairs? false (comment.length + 1) comment

def namesCharset (key : List Char) : Bool :=
  let plain := String.ofList (key.map fun c => if c == '-' then '_' else c.toLower)
  plain == "encoding" || plain == "coding"

def charsetName (text : List Char) : List Char :=
  text.takeWhile fun c => c == '-' || c == '_' || c == '.' || c.isAlphanum

/-- The charset that follows the word for it, with a colon or an equals sign between them. A blank
in front of that sign calls for another behind it. -/
def charsetBehind? (text : List Char) : Option (List Char) :=
  let found :=
    match text with
    | c :: rest =>
      if c == ':' || c == '=' then rest
      else
        match rest.dropWhile isGap with
        | d :: rest => if d == ':' || d == '=' then rest.drop 1 else []
        | [] => []
    | [] => []
  match found.dropWhile isGap with
  | [] => none
  | name => some (charsetName name)

def mentionedCharset? : List Char → Option (List Char)
  | [] => none
  | c :: rest =>
    let word := (c :: rest).take 6
    match (c :: rest).drop 6 with
    | [] => none
    | d :: _ =>
      if String.ofList (word.map Char.toLower) == "coding" && (d == ':' || d == '=' || isGap d)
      then charsetBehind? (rest.drop 5)
      else mentionedCharset? rest

def commentCharset? (comment : List Char) : Option (List Char) :=
  match commentSettings? comment with
  | some settings => (settings.find? (namesCharset ·.1)).map (·.2)
  | none => mentionedCharset? comment

def withoutLineEndName (name : List Char) : List Char :=
  let dropEnd (suffix : String) (text : List Char) : List Char :=
    let front := text.take (text.length - suffix.length)
    let back := String.ofList ((text.drop front.length).map Char.toLower)
    if !front.isEmpty && back == suffix then front else text
  let shorter := dropEnd "-unix" name
  if shorter != name then shorter
  else
    let shorter := dropEnd "-dos" name
    if shorter != name then shorter else dropEnd "-mac" name

def isKnownCharset (name : List Char) : Bool :=
  ["utf-8", "ascii-8bit", "binary"].contains
    (String.ofList ((withoutLineEndName name).map Char.toLower))

/-- The comment at the top of a document and its line. Only a line for the system may stand in
front of it. -/
def topComment? (document : List Char) : Option (List Char × Nat) :=
  let lineOf (text : List Char) := (text.takeWhile (· != '\n'))
  let (line, number) :=
    match document with
    | '#' :: '!' :: rest => (lineOf ((rest.dropWhile (· != '\n')).drop 1), 2)
    | _ => (lineOf document, 1)
  match line.dropWhile isGap with
  | '#' :: comment => some (comment, number)
  | _ => none

def unknownCharsetLine? (document : List Char) : Option Nat :=
  (topComment? document).bind fun (comment, line) =>
    (commentCharset? comment).bind fun name =>
      if isKnownCharset name then none else some line

end RubyScaffold.Grammar
