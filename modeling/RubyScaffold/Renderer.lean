import RubyScaffold.Code.Document
import RubyScaffold.Validation.Report

/-!
Rendering classes under a validator. The validator sees every document once, and a document leaves
the renderer only if it was accepted.
-/

set_option autoImplicit false

namespace RubyScaffold

/-- Why a class has no document: something is wrong with its outline, or the validator rejected
what was rendered. -/
inductive RenderError where
  | invalid (fault : ClassFault)
  | rejected (document : String) (diagnostic : Option String)
  deriving DecidableEq, Repr

namespace RenderError

def message : RenderError → String
  | .invalid (.missingSigil field) =>
    "instance variables must start with an @ symbol, got '" ++ field ++ "'"
  | .invalid (.badName field reason) =>
    "invalid instance variable '" ++ field ++ "': " ++ reason.message
  | .invalid .constructorClash =>
    "initialize method cannot be defined if instance variables are present"
  | .rejected _ none => "the generated code is not valid Ruby"
  | .rejected _ (some d) => "the generated code is not valid Ruby: " ++ d

def code : RenderError → String
  | .invalid (.missingSigil _) => "rbgen::invalid_field_name"
  | .invalid (.badName _ _) => "rbgen::invalid_identifier"
  | .invalid .constructorClash => "rbgen::conflicting_constructor"
  | .rejected _ _ => "rbgen::unparseable_output"

def help? : RenderError → Option String
  | .invalid (.missingSigil field) => some ("rename it to '@" ++ field ++ "'")
  | .invalid (.badName _ _) => none
  | .invalid .constructorClash =>
    some "drop the explicit initialize; one is generated from the instance variables"
  | .rejected _ _ =>
    some "check the class, parent, module and method names for invalid syntax"

def document? : RenderError → Option String
  | .invalid _ => none
  | .rejected document _ => some document

end RenderError

structure Renderer (m : Type → Type) where
  settings : Settings
  validator : Validator m

namespace Renderer

variable {m : Type → Type} [Monad m]

def withSettings (r : Renderer m) (settings : Settings) : Renderer m :=
  { r with settings := settings }

def render (r : Renderer m) (spec : ClassSpec) : m (Except RenderError String) := do
  let document := spec.document r.settings
  let report ← r.validator document
  if report.ok then pure (.ok document)
  else pure (.error (.rejected document report.diagnostic))

end Renderer

end RubyScaffold
