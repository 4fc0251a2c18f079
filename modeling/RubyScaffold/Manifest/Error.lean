import RubyScaffold.Class.Fault
import RubyScaffold.Text.NameSpan

/-!
What can go wrong with a manifest, told with the place in its text.
-/

set_option autoImplicit false

namespace RubyScaffold

inductive ManifestFormat where
  | toml
  | json
  deriving DecidableEq, Repr

def ManifestFormat.name : ManifestFormat → String
  | .toml => "TOML"
  | .json => "JSON"

structure Label where
  offset : Nat
  length : Nat
  text : String
  deriving DecidableEq, Repr

/-- Why no manifest could be had. The source is the name under which its text is shown. -/
inductive ManifestError where
  | io (path : String)
  /-- The text is not in its format, or its values are no manifest. -/
  | parse (format : ManifestFormat) (source message : String) (span : Option (Nat × Nat))
  | invalid (fault : ClassFault) (source : String) (span : Option (Nat × Nat))

namespace ManifestError

def message : ManifestError → String
  | .io path => "failed to read '" ++ path ++ "'"
  | .parse format _ message _ => "failed to parse " ++ format.name ++ " manifest: " ++ message
  | .invalid (.missingSigil field) _ _ => "invalid instance variable '" ++ field ++ "'"
  | .invalid (.badName field _) _ _ => "invalid instance variable '" ++ field ++ "'"
  | .invalid .constructorClash _ _ =>
    "'initialize' cannot be declared when instance variables are present"

def parserMessage? : ManifestError → Option String
  | .parse _ _ message _ => some message
  | .io _ | .invalid _ _ _ => none

def code : ManifestError → String
  | .io _ => "rbgen::io"
  | .parse _ _ _ _ => "rbgen::parse_error"
  | .invalid (.missingSigil _) _ _ => "rbgen::invalid_field_name"
  | .invalid (.badName _ _) _ _ => "rbgen::invalid_identifier"
  | .invalid .constructorClash _ _ => "rbgen::conflicting_constructor"

def help? : ManifestError → Option String
  | .io _ | .parse _ _ _ _ => none
  | .invalid (.missingSigil field) _ _ =>
    some ("instance variables must start with an @ symbol, e.g. '@" ++ field ++ "'")
  | .invalid (.badName _ reason) _ _ => some reason.message
  | .invalid .constructorClash _ _ =>
    some ("remove 'initialize' from methods; it is generated from the instance variables")

def source? : ManifestError → Option String
  | .io _ => none
  | .parse _ source _ _ | .invalid _ source _ => some source

def labelText : ManifestError → String
  | .io _ => ""
  | .parse _ _ _ _ => "parse error here"
  | .invalid (.missingSigil _) _ _ => "missing @ sigil"
  | .invalid (.badName _ _) _ _ => "invalid identifier"
  | .invalid .constructorClash _ _ => "declared here"

/-- The marked parts of the text; none at all where the error is not about a text. -/
def labels? (e : ManifestError) : Option (List Label) :=
  match e with
  | .io _ => none
  | .parse _ _ _ span | .invalid _ _ span =>
    some (span.toList.map fun s => ⟨s.1, s.2, e.labelText⟩)

end ManifestError

/-- Goes through the instance variables of a manifest in their order and stops at the first that
lacks its sigil or a usable name. -/
def checkFieldsIn (text source : String) : List String → Except ManifestError Unit
  | [] => .ok ()
  | field :: rest =>
    match ClassOutline.bareField? field with
    | none => .error (.invalid (.missingSigil field) source (Text.nameSpan? text field))
    | some name =>
      match Naming.nameFault? name with
      | some reason =>
        .error (.invalid (.badName field reason) source (Text.nameSpan? text field))
      | none => checkFieldsIn text source rest

/-- What is wrong with the class of a manifest, with the place of the name it is about: first its
instance variables, then a constructor declared next to them. -/
def ClassOutline.checkIn {δ : Type} (c : ClassOutline δ) (text source : String) :
    Except ManifestError Unit := do
  checkFieldsIn text source c.fields
  if !c.fields.isEmpty && c.methods.contains constructorName then
    .error (.invalid .constructorClash source (Text.nameSpan? text constructorName))
  else .ok ()

end RubyScaffold
