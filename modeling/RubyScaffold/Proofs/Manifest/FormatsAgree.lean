import RubyScaffold.Proofs.Manifest.JsonSchema

/-!
TOML and JSON agree: texts that say the same give the same manifest, or none, and a class that fails
its check fails for the same fault.
-/

set_option autoImplicit false

namespace RubyScaffold.Manifest

open Json (Value)
open Schema (Fits Sections ClassInWord manifestOf)

variable {format : ManifestFormat} {text source : String}

private theorem decode_ne_invalid (fault : ClassFault) (name : String) (span : Option (Nat × Nat)) :
    decode format text source ≠ .error (.invalid fault name span) := by
  intro refused
  cases format with
  | json =>
    obtain ⟨e, -, told⟩ := mapError_eq_error.mp refused
    cases told
  | toml =>
    obtain ⟨e, -, told⟩ := mapError_eq_error.mp refused
    cases told

/-- A text is refused for its class where the class has the fault, which is told with the place of
the offender's name. -/
theorem parse_eq_invalid_iff {fault : ClassFault} {name : String} {span : Option (Nat × Nat)} :
    parse format text source = .error (.invalid fault name span) ↔
      name = source ∧ span = Text.nameSpan? text fault.offender ∧
        ∃ m, decode format text source = .ok m ∧ m.cls.fault? = some fault := by
  rw [parse_eq]
  cases decoded : decode format text source with
  | error e =>
    have other : e ≠ .invalid fault name span := fun same =>
      decode_ne_invalid fault name span (decoded.trans (congrArg _ same))
    simpa using other
  | ok m =>
    cases found : m.cls.fault? with
    | none => simp [found]
    | some f =>
      simp only [found, ClassFault.locate, Except.error.injEq, ManifestError.invalid.injEq]
      constructor
      · rintro ⟨rfl, rfl, rfl⟩
        exact ⟨rfl, rfl, m, rfl, found⟩
      · rintro ⟨rfl, rfl, n, own, bad⟩
        cases own
        obtain rfl := Option.some.inj (found.symm.trans bad)
        exact ⟨rfl, rfl, rfl⟩

private theorem parse_invalid_iff {fault : ClassFault} :
    (∃ span, parse format text source = .error (.invalid fault source span)) ↔
      ∃ m, decode format text source = .ok m ∧ m.cls.fault? = some fault := by
  simp only [parse_eq_invalid_iff, true_and, exists_eq_left]

theorem decode_toml_eq_ok_iff {t : Toml.TomlTree} (read : Toml.read text = .ok t) {m : Manifest} :
    decode .toml text source = .ok m ↔ Decode.manifest (fun _ _ => none) t = .ok m := by
  rw [decode, decodeToml, read]
  exact mapError_eq_ok

/-- A TOML text and a JSON text that say the same give the same manifests, before the check of the
class and after it, and the check refuses both for the same fault. -/
theorem toml_json_agree {ms : List (String × Value)} (sections : Sections ms)
    {toml json : String} {t : Toml.TomlTree} {u : Json.JsonTree}
    (readToml : Toml.read toml = .ok t) (held : (Value.table ms).HeldBy t)
    (readJson : Json.read Decode.asked json = ⟨u, none⟩)
    (shown : (Value.table ms).ShownBy Decode.asked u) (tomlSource jsonSource : String) :
    (∀ m, parse .toml toml tomlSource = .ok m ↔ parse .json json jsonSource = .ok m) ∧
    (∀ m, decode .toml toml tomlSource = .ok m ↔ decode .json json jsonSource = .ok m) ∧
    (∀ fault, (∃ span, parse .toml toml tomlSource = .error (.invalid fault tomlSource span)) ↔
      ∃ span, parse .json json jsonSource = .error (.invalid fault jsonSource span)) := by
  have whole : (Value.table ms).ShownBy .everything t := (Json.shownBy_everything _ t).mpr held
  have same : ∀ m, decode .toml toml tomlSource = .ok m ↔ decode .json json jsonSource = .ok m := by
    intro m
    rw [decode_toml_eq_ok_iff readToml, decode_json_eq_ok_iff readJson,
      Decode.manifest_eq_ok_iff Decode.covers_everything sections whole,
      Decode.manifest_eq_ok_iff Decode.covers_asked sections shown]
  refine ⟨fun m => ?_, same, fun fault => ?_⟩
  · rw [parse_eq_ok_iff, parse_eq_ok_iff, same]
  · rw [parse_invalid_iff, parse_invalid_iff]
    simp only [same]

def potToml : String :=
  "[settings]\nx = 1\n[class]\nname = \"Pot\"\ndirectives = \x7b size = 3 \x7d\n"

private theorem held_potToml :
    ∃ t, Toml.read potToml = .ok t ∧ (Value.table potMembers).HeldBy t := by
  have found : (Toml.read potToml).toOption.any
      (fun t => decide ((Value.table potMembers).HeldBy t)) = true := by
    decide +kernel
  cases read : Toml.read potToml with
  | error f =>
    rw [read] at found
    cases found
  | ok t =>
    rw [read] at found
    exact ⟨t, rfl, of_decide_eq_true found⟩

theorem toml_json_agree_pot :
    parse .json potJson "pot.json" = .ok (manifestOf potMembers) ∧
      parse .toml potToml "pot.toml" = .ok (manifestOf potMembers) := by
  obtain ⟨t, readToml, held⟩ := held_potToml
  obtain ⟨u, readJson, shown⟩ := shown_potJson
  have agree := toml_json_agree sections_pot readToml held readJson shown "pot.toml" "pot.json"
  have decoded : Decode.manifest Json.surplusFault u = .ok (manifestOf potMembers) :=
    (Decode.manifest_eq_ok_iff Decode.covers_asked sections_pot shown _).mpr
      ⟨fits_pot, classInWord_pot, rfl⟩
  have json : parse .json potJson "pot.json" = .ok (manifestOf potMembers) :=
    parse_eq_ok_iff.mpr ⟨(decode_json_eq_ok_iff readJson).mpr decoded, rfl⟩
  exact ⟨json, (agree.1 _).mpr json⟩

end RubyScaffold.Manifest
