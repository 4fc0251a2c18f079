import RubyScaffold.Json.Writer
import RubyScaffold.Manifest.Basic

/-!
The schema of a manifest, over values whose tables keep their members in order and may repeat keys:
which members a table may have, which values they take, and which manifest they describe.
-/

set_option autoImplicit false

namespace RubyScaffold

namespace Json.Value

def IsText : Value → Prop
  | .text _ => True
  | _ => False

def IsBool : Value → Prop
  | .bool _ => True
  | _ => False

def IsTexts : Value → Prop
  | .list items => ∀ v ∈ items, v.IsText
  | _ => False

def IsScalar : Value → Prop
  | .bool _ | .integer _ | .float _ | .text _ => True
  | _ => False

def OrNull (fit : Value → Prop) (v : Value) : Prop :=
  v = .null ∨ fit v

def IsMap (fit : Value → Prop) : Value → Prop
  | .table members => ∀ m ∈ members, fit m.2
  | _ => False

/-- The members of a table; other values have none. -/
def members : Value → List (String × Value)
  | .table ms => ms
  | _ => []

def asText : Value → String
  | .text s => s
  | _ => ""

def asBool : Value → Bool
  | .bool b => b
  | _ => false

def asTexts : Value → List String
  | .list items => items.map asText
  | _ => []

/-- The value of a directive. A whole number that needs more than 64 bits with a sign becomes the
nearest binary number. -/
def asDirective : Value → DirectiveValue
  | .bool b => .bool b
  | .integer i =>
    if -0x8000000000000000 ≤ i ∧ i < 0x8000000000000000 then .integer (Int64.ofInt i)
    else .float (.ofNat i.toNat)
  | .float x => .float x
  | .text s => .text s
  | _ => .text ""

def asOption {α : Type} (read : Value → α) : Value → Option α
  | .null => none
  | v => some (read v)

/-- The map that a table writes. A key that comes again keeps its place and takes the last value. -/
def asMap {α : Type} (read : Value → α) (v : Value) : OrderedMap α :=
  .ofList (v.members.map fun m => (m.1, read m.2))

end Json.Value

open Json (Value)

namespace Schema

def keys (ms : List (String × Value)) : List String :=
  ms.map Prod.fst

def field {α : Type} (ms : List (String × Value)) (key : String) (read : Value → α) (default : α) :
    α :=
  ((ms.lookup key).map read).getD default

/-- Settings name one key at most once, with a truth value; what else they hold does not matter. -/
structure SettingsFit (ms : List (String × Value)) : Prop where
  once : (keys ms).count "frozen_string_literal" ≤ 1
  fits : ∀ v, ("frozen_string_literal", v) ∈ ms → v.IsBool

def settingsOn (s : Settings) (ms : List (String × Value)) : Settings where
  frozenStringLiteral := field ms "frozen_string_literal" Value.asBool s.frozenStringLiteral

def settingsOf (ms : List (String × Value)) : Settings :=
  settingsOn {} ms

def MemberFits (key : String) (v : Value) : Prop :=
  match key with
  | "name" => v.IsText
  | "parent" => v.OrNull Value.IsText
  | "methods" => v.IsMap (Value.OrNull Value.IsTexts)
  | "directives" => v.IsMap Value.IsScalar
  | _ => v.IsTexts

def classKeys : List String :=
  ["name", "parent", "modules", "includes", "requires", "relative_requires", "fields", "methods",
    "top_contents", "directives"]

/-- A class has known members, each once, and a name. -/
structure ClassFits (ms : List (String × Value)) : Prop where
  known : ∀ m ∈ ms, m.1 ∈ classKeys
  once : (keys ms).Nodup
  named : "name" ∈ keys ms
  fits : ∀ m ∈ ms, MemberFits m.1 m.2

def classOn (c : ManifestClass) (ms : List (String × Value)) : ManifestClass where
  name := field ms "name" Value.asText c.name
  parent := field ms "parent" (Value.asOption Value.asText) c.parent
  scopes := field ms "modules" Value.asTexts c.scopes
  includes := field ms "includes" Value.asTexts c.includes
  requires := field ms "requires" Value.asTexts c.requires
  relativeRequires := field ms "relative_requires" Value.asTexts c.relativeRequires
  fields := field ms "fields" Value.asTexts c.fields
  methods := field ms "methods" (Value.asMap (Value.asOption Value.asTexts)) c.methods
  topContents := field ms "top_contents" Value.asTexts c.topContents
  directives := field ms "directives" (Value.asMap Value.asDirective) c.directives

/-- The class that members describe: what they do not name is missing or empty. -/
def classOf (ms : List (String × Value)) : ManifestClass :=
  classOn { name := "" } ms

/-- A manifest has a class, perhaps settings, each once, and nothing else. -/
structure Fits (ms : List (String × Value)) : Prop where
  known : ∀ m ∈ ms, m.1 = "settings" ∨ m.1 = "class"
  once : (keys ms).Nodup
  described : "class" ∈ keys ms
  settings : ∀ v, ("settings", v) ∈ ms → SettingsFit v.members
  cls : ∀ v, ("class", v) ∈ ms → ClassFits v.members

def manifestOn (m : Manifest) (ms : List (String × Value)) : Manifest where
  settings := field ms "settings" (fun v => settingsOf v.members) m.settings
  cls := field ms "class" (fun v => classOf v.members) m.cls

def manifestOf (ms : List (String × Value)) : Manifest :=
  manifestOn { cls := { name := "" } } ms

end Schema

end RubyScaffold
