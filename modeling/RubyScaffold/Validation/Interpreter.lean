import RubyScaffold.Text.Replacement
import RubyScaffold.Unicode.Blank
import RubyScaffold.Validation.Report

/-!
Validation by running an interpreter on the document.
-/

set_option autoImplicit false

namespace RubyScaffold

structure ProgramRun where
  succeeded : Bool
  stderr : List UInt8

/-- A program, and what comes of starting it with arguments and an input: a run, or the reason why
there is none. -/
structure Interpreter where
  program : String
  start : List String → String → Except String ProgramRun

namespace Interpreter

def isAvailable (i : Interpreter) : Bool :=
  match i.start ["--version"] "" with
  | .error _ => false
  | .ok run => run.succeeded

/-- The verdict of the syntax check of the program. What it complains about is the diagnostic. -/
def check (i : Interpreter) (document : String) : Report :=
  match i.start ["-c"] document with
  | .error reason => .invalid ("failed to run '" ++ i.program ++ "': " ++ reason)
  | .ok run =>
    if run.succeeded then .valid
    else .invalid (Unicode.trim (Text.decodeLenient run.stderr))

end Interpreter

end RubyScaffold
