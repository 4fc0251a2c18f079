import RubyScaffold.Json.Reader
import RubyScaffold.Manifest.Decode
import RubyScaffold.Manifest.Error
import RubyScaffold.Toml.Reader

/-!
Manifests out of TOML and JSON text. Both are read as trees and decoded by the same rules; the
formats differ in how they write binary numbers, in what they think of items behind the last field
of a record, and in how they say where an error is.
-/

set_option autoImplicit false

namespace RubyScaffold

namespace Json

/-- The fault of closing a list before the given items, or before what broke it off. -/
def surplusFault (rest : List JsonTree) (ending : Option Fault) : Option Fault :=
  match rest, ending with
  | t :: _, _ => some ⟨.trailingCharacters, t.place.start + 1⟩
  | [], none => none
  | [], some f => match f.flaw with
    | .endInValue | .noListEnd => some ⟨.trailingCharacters, f.index⟩
    | _ => some f

/-- How many bytes have been read when a mismatch is noticed. A mismatch found inside a record
is told once the white space and the closing brace behind it have been read. -/
def mismatchIndex : Mismatch Place Fault → Nat
  | .wrongKind .list _ p | .wrongKind .table _ p => p.start
  | .wrongKind _ _ p => p.stop
  | .unknownField _ _ p | .repeatedField _ p | .noDirectiveValue p => p.settled
  | .missingField _ p | .tooShort _ _ _ p => p.stop
  | .unreadable f => f.index

def floatText (x : Binary64) : String :=
  (Decimal.jsonText? x).getD (Decimal.plainText x)

/-- A message about a JSON text, with the line and the column at the end of what was read. -/
def located (text : List UInt8) (index : Nat) (message : String) : String :=
  message ++ " at line " ++ toString (Text.lineAt text index) ++ " column " ++
    toString (Text.bytesIntoLine text index)

end Json

namespace Manifest

def jsonError (text source : String) (m : Mismatch Json.Place Json.Fault) : ManifestError :=
  let bytes := Text.bytes text
  let index := Json.mismatchIndex m
  let message := m.message Json.floatText fun f => f.flaw.message
  let offset := Text.offsetOf bytes (Text.lineAt bytes index) (Text.bytesIntoLine bytes index)
  .parse .json source (Json.located bytes index message) (offset.map (·, 0))

def decodeJson (text : String) : Except (Mismatch Json.Place Json.Fault) Manifest := do
  let document := Json.read Decode.asked text
  let manifest ← Decode.manifest Json.surplusFault document.root
  Decode.ended document.ending
  .ok manifest

def tomlSpan : Mismatch Toml.Span Toml.Fault → Toml.Span
  | .wrongKind _ _ p | .unknownField _ _ p | .repeatedField _ p | .missingField _ p
  | .tooShort _ _ _ p | .noDirectiveValue p => p
  | .unreadable f => f.span

def tomlError (source : String) (m : Mismatch Toml.Span Toml.Fault) : ManifestError :=
  let place := tomlSpan m
  .parse .toml source (m.message Decimal.pointedText fun f => f.flaw.message)
    (some (place.offset, place.length))

/-- The manifest in a TOML text, before its class is checked; items behind the last field of a
record are ignored. -/
def decodeToml (text : String) : Except (Mismatch Toml.Span Toml.Fault) Manifest := do
  let tree ← (Toml.read text).mapError .unreadable
  Decode.manifest (fun _ _ => none) tree

/-- The manifest in a text, before its class is checked. -/
def decode (format : ManifestFormat) (text source : String) : Except ManifestError Manifest :=
  match format with
  | .json => (decodeJson text).mapError (jsonError text source)
  | .toml => (decodeToml text).mapError (tomlError source)

def parse (format : ManifestFormat) (text source : String) : Except ManifestError Manifest := do
  let manifest ← decode format text source
  manifest.cls.checkIn text source
  .ok manifest

def defaultSource : ManifestFormat → String
  | .toml => "rbgen.toml"
  | .json => "rbgen.json"

end Manifest

end RubyScaffold
