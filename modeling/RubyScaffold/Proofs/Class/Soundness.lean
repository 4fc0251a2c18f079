import RubyScaffold.Class.Spec

/-!
What the check of an outline establishes, said without the functions that carry it out: which
instance variables may stand, what is wrong with the others, and which fault of an outline counts.
-/

set_option autoImplicit false

namespace RubyScaffold

variable {δ ε : Type}

/-- An instance variable that may stand: a sigil in front of a usable name. -/
def ValidField (field : String) : Prop :=
  ∃ name, field = "@" ++ name ∧ Naming.nameFault? name = none

inductive FieldFault : String → ClassFault → Prop
  | missingSigil {field : String} : (∀ name, field ≠ "@" ++ name) →
      FieldFault field (.missingSigil field)
  | badName {name : String} {reason : Naming.NameFault} : Naming.nameFault? name = some reason →
      FieldFault ("@" ++ name) (.badName ("@" ++ name) reason)

/-- The fault that counts for a class: that of the first instance variable with one, or, where all
of them may stand, the clash of a declared constructor with the one they bring. -/
inductive FirstFault (c : ClassOutline δ) : ClassFault → Prop
  | field {before after : List String} {field : String} {fault : ClassFault} :
      c.fields = before ++ field :: after → (∀ f ∈ before, ValidField f) →
      FieldFault field fault → FirstFault c fault
  | clash : c.fields ≠ [] → (∀ f ∈ c.fields, ValidField f) →
      "initialize" ∈ c.methods.keys → FirstFault c .constructorClash

namespace ClassOutline

theorem bareField?_eq_some_iff {field name : String} :
    bareField? field = some name ↔ field = "@" ++ name := by
  rw [← String.toList_inj, String.toList_append]
  unfold bareField?
  split
  · next rest h => simp [h, ← String.toList_inj]
  · next h =>
    simp only [reduceCtorEq, false_iff]
    exact fun start => h name.toList start

private theorem bareField?_eq_none_iff {field : String} :
    bareField? field = none ↔ ∀ name, field ≠ "@" ++ name := by
  rw [Option.eq_none_iff_forall_ne_some]
  simp only [ne_eq, bareField?_eq_some_iff]

end ClassOutline

open ClassOutline

private theorem fieldFault?_eq_none_iff {field : String} :
    fieldFault? field = none ↔ ValidField field := by
  unfold fieldFault? ValidField
  cases bare : bareField? field with
  | none =>
    have noSigil := bareField?_eq_none_iff.mp bare
    simp only [reduceCtorEq, false_iff]
    rintro ⟨name, start, -⟩
    exact noSigil name start
  | some name =>
    have start := bareField?_eq_some_iff.mp bare
    subst start
    simp

private theorem fieldFault?_eq_some_iff {field : String} {fault : ClassFault} :
    fieldFault? field = some fault ↔ FieldFault field fault := by
  constructor
  · intro h
    unfold fieldFault? at h
    cases bare : bareField? field with
    | none =>
      simp only [bare, Option.some.injEq] at h
      subst h
      exact .missingSigil (bareField?_eq_none_iff.mp bare)
    | some name =>
      have start := bareField?_eq_some_iff.mp bare
      subst start
      simp only [bare, Option.map_eq_some_iff] at h
      obtain ⟨reason, bad, rfl⟩ := h
      exact .badName bad
  · intro h
    cases h with
    | missingSigil noSigil => simp [fieldFault?, bareField?_eq_none_iff.mpr noSigil]
    | @badName name reason bad =>
      have bare : bareField? ("@" ++ name) = some name := bareField?_eq_some_iff.mpr rfl
      simp [fieldFault?, bare, bad]

private theorem findSome?_fieldFault?_eq_none_iff {fields : List String} :
    fields.findSome? fieldFault? = none ↔ ∀ f ∈ fields, ValidField f := by
  simp [List.findSome?_eq_none_iff, fieldFault?_eq_none_iff]

theorem fault?_eq_none_iff {c : ClassOutline δ} :
    c.fault? = none ↔
      (∀ f ∈ c.fields, ValidField f) ∧ (c.fields = [] ∨ constructorName ∉ c.methods.keys) := by
  unfold fault?
  cases found : c.fields.findSome? fieldFault? with
  | some fault =>
    have bad : ¬ ∀ f ∈ c.fields, ValidField f := by
      rw [← findSome?_fieldFault?_eq_none_iff, found]
      simp
    simp [bad]
  | none =>
    have valid := findSome?_fieldFault?_eq_none_iff.mp found
    rw [and_iff_right valid]
    by_cases empty : c.fields = [] <;> simp [empty, OrderedMap.contains]

theorem fault?_eq_some_iff {c : ClassOutline δ} {fault : ClassFault} :
    c.fault? = some fault ↔ FirstFault c fault := by
  constructor
  · intro h
    unfold fault? at h
    cases found : c.fields.findSome? fieldFault? with
    | some first =>
      simp only [found, Option.some.injEq] at h
      subst h
      obtain ⟨before, field, after, split, bad, good⟩ := List.findSome?_eq_some_iff.mp found
      exact .field split (fun f mem => fieldFault?_eq_none_iff.mp (good f mem))
        (fieldFault?_eq_some_iff.mp bad)
    | none =>
      have valid := findSome?_fieldFault?_eq_none_iff.mp found
      simp only [found] at h
      split at h
      · next clash =>
        simp only [Option.some.injEq] at h
        subst h
        simp only [Bool.and_eq_true, Bool.not_eq_true', List.isEmpty_eq_false_iff,
          OrderedMap.contains, List.contains_iff_mem] at clash
        exact .clash clash.1 valid clash.2
      · cases h
  · intro h
    cases h with
    | @field before after field fault split good bad =>
      have found : c.fields.findSome? fieldFault? = some fault :=
        List.findSome?_eq_some_iff.mpr ⟨before, field, after, split,
          fieldFault?_eq_some_iff.mpr bad, fun f mem => fieldFault?_eq_none_iff.mpr (good f mem)⟩
      simp [fault?, found]
    | clash some valid declared =>
      have found := findSome?_fieldFault?_eq_none_iff.mpr valid
      simp [fault?, found, some, OrderedMap.contains, constructorName, declared]

namespace ClassSpec

theorem validField (spec : ClassSpec) : ∀ f ∈ spec.fields, ValidField f :=
  (fault?_eq_none_iff.mp spec.sound).1

end ClassSpec

end RubyScaffold
