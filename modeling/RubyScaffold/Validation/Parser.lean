import RubyScaffold.Text.Bytes
import RubyScaffold.Validation.Report

/-!
Validation by a parser. The parser may be any; its errors become the verdict, each with the line
that it is on.
-/

set_option autoImplicit false

namespace RubyScaffold

/-- What a parser has to say about a place in a document: an error, or no more than a warning. -/
structure ParserDiagnostic where
  isError : Bool
  offset : Nat
  message : String

abbrev Parser := String → List ParserDiagnostic

namespace Parser

def errorLine (document : String) (d : ParserDiagnostic) : String :=
  "line " ++ toString (Text.lineAt (Text.bytes document) d.offset) ++ ": " ++ d.message

def errorLines (parser : Parser) (document : String) : List String :=
  ((parser document).filter (·.isError)).map (errorLine document)

/-- The verdict of the parser. Warnings do not count. -/
def report (parser : Parser) (document : String) : Report :=
  match parser.errorLines document with
  | [] => .valid
  | errors => .invalid (String.intercalate "\n" errors)

end Parser

end RubyScaffold
