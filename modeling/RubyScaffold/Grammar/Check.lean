import RubyScaffold.Grammar.Charset
import RubyScaffold.Grammar.Statement
import RubyScaffold.Validation.Parser

/-!
Parsing a document by the grammar. The reading stops at the first error, so that is all it reports.
-/

set_option autoImplicit false

namespace RubyScaffold.Grammar

/-- The meaning of the rules, where each takes one from the depth to which rules may nest. -/
def rulesTo : Nat → Rules
  | 0, _ => failHere
  | depth + 1, rule =>
    match rule with
    | .statements => do
      statementList (rulesTo depth)
      return ⟨.other, 0⟩
    | .statement grouped => statementRule (rulesTo depth) grouped
    | .expression reach grouped => expressionRule (rulesTo depth) reach grouped
    | .operation level reach grouped => operationRule (rulesTo depth) level reach grouped
    | .primary grouped => primaryRule (rulesTo depth) grouped
    | .literal => primaryStart (rulesTo depth) false
    | .pattern => patternRule (rulesTo depth)

/-- Reads a whole document. Only here may statements be marked to run first. -/
def program (rules : Rules) : Parse Unit := do
  repeatWhile do
    skipTerminators
    let t := (← peek).token
    if endsStatements t then return false
    if t == .word "BEGIN" then
      discard advance
      bracedStatements rules
    else discard (rules (.statement false))
    let next := (← peek).token
    return next == .lineEnd || next == .sign ";"
  expect .endOfText

def withoutByteOrderMark : List Char → List Char
  | '\ufeff' :: rest => rest
  | document => document

/-- The line of the first error in a document. Each token lets rules nest a few levels deeper, so
a depth in proportion to the document's size is never used up. -/
def errorLine? (document : String) : Option Nat :=
  let text := withoutByteOrderMark document.toList
  match unknownCharsetLine? text with
  | some line => some line
  | none =>
    match (program (rulesTo (16 * (text.length + 2)))).run (.start text) with
    | .ok _ => none
    | .error line => some line

/-- Where a line of a document starts; a line behind the last one starts at the end. -/
def lineStart (document : String) (line : Nat) : Nat :=
  let text := Text.bytes document
  (Text.offsetOf text line 1).getD text.length

def parser : Parser := fun document =>
  match errorLine? document with
  | none => []
  | some line =>
    [{ isError := true, offset := lineStart document line, message := "not valid here" }]

end RubyScaffold.Grammar
