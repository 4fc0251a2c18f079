import Mathlib
import RubyScaffold.Generator
import RubyScaffold.Manifest.Reading
import RubyScaffold.Proofs.Class.Soundness

/-!
A manifest is checked twice: where it is read, with the places of its faults, and where its class
is taken for generation. Both checks walk the instance variables in their own way; they accept the
same classes and refuse the others for the same fault.
-/

set_option autoImplicit false

namespace RubyScaffold

/-- The name in a manifest that a fault is about. -/
def ClassFault.offender : ClassFault → String
  | .missingSigil field => field
  | .badName field _ => field
  | .constructorClash => "initialize"

def ClassFault.locate (fault : ClassFault) (text source : String) : ManifestError :=
  .invalid fault source (Text.nameSpan? text fault.offender)

/-- A class to generate that has all that a manifest says, the values of the directives in their
text form. -/
structure ClassSpec.Holds (spec : ClassSpec) (c : ManifestClass) : Prop where
  name : spec.name = c.name
  parent : spec.parent = c.parent
  scopes : spec.scopes = c.scopes
  includes : spec.includes = c.includes
  requires : spec.requires = c.requires
  relativeRequires : spec.relativeRequires = c.relativeRequires
  fields : spec.fields = c.fields
  methods : spec.methods = c.methods
  topContents : spec.topContents = c.topContents
  directives : spec.directives.entries = c.directives.entries.map fun d => (d.1, d.2.display)

variable {δ : Type}

private theorem checkFieldsIn_eq (text source : String) (fields : List String) :
    checkFieldsIn text source fields =
      match fields.findSome? fieldFault? with
      | some fault => .error (fault.locate text source)
      | none => .ok () := by
  induction fields with
  | nil => rfl
  | cons field rest ih =>
    unfold checkFieldsIn
    cases bare : ClassOutline.bareField? field with
    | none =>
      have first : fieldFault? field = some (.missingSigil field) := by simp [fieldFault?, bare]
      simp [first, ClassFault.locate, ClassFault.offender]
    | some name =>
      cases bad : Naming.nameFault? name with
      | some reason =>
        have first : fieldFault? field = some (.badName field reason) := by
          simp [fieldFault?, bare, bad]
        simp [first, bad, ClassFault.locate, ClassFault.offender]
      | none =>
        have first : fieldFault? field = none := by simp [fieldFault?, bare, bad]
        simp only [List.findSome?_cons, first, bad]
        exact ih

namespace ClassOutline

theorem checkIn_eq (c : ClassOutline δ) (text source : String) :
    c.checkIn text source =
      match c.fault? with
      | some fault => .error (fault.locate text source)
      | none => .ok () := by
  rw [checkIn, checkFieldsIn_eq, fault?]
  cases c.fields.findSome? fieldFault? with
  | some fault => rfl
  | none =>
    by_cases clash : (!c.fields.isEmpty && c.methods.contains constructorName) = true
    · simp only [clash, if_true]
      rfl
    · simp only [clash, Bool.false_eq_true, if_false]
      rfl

theorem check_eq_ok_iff {c : ClassOutline String} {spec : ClassSpec} :
    c.check = .ok spec ↔ spec.toClassOutline = c := by
  constructor
  · intro h
    unfold check at h
    split at h
    · cases h
    · cases h
      rfl
  · rintro rfl
    unfold check
    split
    · next fault bad => rw [spec.sound] at bad; cases bad
    · rfl

private theorem check_eq_error_iff {c : ClassOutline String} {fault : ClassFault} :
    c.check = .error fault ↔ c.fault? = some fault := by
  unfold check
  split
  · next first bad => simp [bad]
  · next good => simp [good]

private theorem fault?_displayed (c : ManifestClass) : c.displayed.fault? = c.fault? := rfl

private theorem toSpec_eq_error_iff {c : ManifestClass} {fault : ClassFault} :
    c.toSpec = .error fault ↔ c.fault? = some fault := by
  rw [toSpec, check_eq_error_iff, fault?_displayed]

private theorem toSpec_isOk_iff {c : ManifestClass} :
    (∃ spec, c.toSpec = .ok spec) ↔ c.fault? = none := by
  constructor
  · rintro ⟨spec, accepted⟩
    rw [Option.eq_none_iff_forall_ne_some]
    intro fault bad
    rw [toSpec_eq_error_iff.mpr bad] at accepted
    cases accepted
  · intro good
    exact ⟨⟨c.displayed, good⟩, check_eq_ok_iff.mpr rfl⟩

private theorem holds_of_toSpec {c : ManifestClass} {spec : ClassSpec}
    (accepted : c.toSpec = .ok spec) : spec.Holds c := by
  have same := check_eq_ok_iff.mp accepted
  constructor <;> rw [same] <;> rfl

end ClassOutline

private theorem Manifest.fault?_of_parse {format : ManifestFormat} {text source : String}
    {m : Manifest} (read : parse format text source = .ok m) : m.cls.fault? = none := by
  unfold parse at read
  cases decoded : decode format text source with
  | error e => rw [decoded] at read; cases read
  | ok manifest =>
    rw [decoded] at read
    change (manifest.cls.checkIn text source >>= fun _ => .ok manifest) = _ at read
    rw [ClassOutline.checkIn_eq] at read
    cases fault : manifest.cls.fault? with
    | some f => rw [fault] at read; cases read
    | none =>
      rw [fault] at read
      cases read
      exact fault

/-- The two checks agree, on whether a class passes and on the fault that counts otherwise, and a
manifest that could be read can be generated from with all its data. -/
theorem validations_agree (c : ManifestClass) (text source : String) :
    (c.checkIn text source = .ok () ↔ ∃ spec, c.toSpec = .ok spec) ∧
    (∀ e, c.checkIn text source = .error e ↔
      ∃ fault, c.toSpec = .error fault ∧ e = fault.locate text source) ∧
    (∀ fault, c.toSpec = .error fault ↔ FirstFault c fault) ∧
    (∀ (format : ManifestFormat) (content name : String) (m : Manifest)
      (validator : String → Report), Manifest.parse format content name = .ok m →
      ∃ g, Generator.ofManifest validator m = .ok g ∧ g.settings = m.settings ∧
        g.spec.Holds m.cls) := by
  refine ⟨?_, fun e => ?_, fun fault => ?_, fun format content name m validator read => ?_⟩
  · rw [ClassOutline.toSpec_isOk_iff, ClassOutline.checkIn_eq]
    cases c.fault? <;> simp
  · simp only [ClassOutline.toSpec_eq_error_iff, ClassOutline.checkIn_eq]
    cases c.fault? <;> simp [eq_comm]
  · rw [ClassOutline.toSpec_eq_error_iff, fault?_eq_some_iff]
  · obtain ⟨spec, accepted⟩ := ClassOutline.toSpec_isOk_iff.mpr (Manifest.fault?_of_parse read)
    exact ⟨{ spec := spec, settings := m.settings, validator := validator },
      by simp [Generator.ofManifest, accepted, bind, Except.bind], rfl,
      ClassOutline.holds_of_toSpec accepted⟩

def cupText : String :=
  "\x7b\"class\":\x7b\"name\":\"Cup\",\"fields\":[\"@tea\"]\x7d\x7d"

def cup : Manifest where
  cls := { name := "Cup", fields := ["@tea"] }

theorem validations_agree_cup :
    (cup.cls.checkIn cupText "cup.json" = .ok () ↔ ∃ spec, cup.cls.toSpec = .ok spec) ∧
    ∃ g, Generator.ofManifest (fun _ => .valid) cup = .ok g ∧ g.settings = cup.settings ∧
      g.spec.Holds cup.cls := by
  have read : Manifest.parse .json cupText "cup.json" = .ok cup := by cbv
  have agree := validations_agree cup.cls cupText "cup.json"
  exact ⟨agree.1, agree.2.2.2 .json cupText "cup.json" cup (fun _ => .valid) read⟩

end RubyScaffold
