import RubyScaffold.Proofs.Code.Reference
import RubyScaffold.Proofs.Naming.Usable
import RubyScaffold.Proofs.Text.Commas
import RubyScaffold.Proofs.Text.Joins

/-!
The lines of the layout, read back. What stands in a line is determined by it, as long as no name
holds the mark that ends it.
-/

set_option autoImplicit false

namespace RubyScaffold.Code

open Text

variable {δ : Type}

theorem indented_inj {level : Nat} {s t : String} (same : indented level s = indented level t) :
    s = t :=
  (String.append_right_inj _).mp same

theorem commentLine_inj {key key' value value' : String} (free : ':' ∉ key.toList)
    (free' : ':' ∉ key'.toList)
    (same : "# " ++ key ++ ": " ++ value = "# " ++ key' ++ ": " ++ value') :
    key = key' ∧ value = value' := by
  have lists : key.toList ++ ':' :: ' ' :: value.toList =
      key'.toList ++ ':' :: ' ' :: value'.toList := by
    simpa using congrArg String.toList same
  obtain ⟨front, back⟩ := append_cons_inj_of_not_mem free free' lists
  exact ⟨String.toList_injective front, String.toList_injective (List.cons.inj back).2⟩

/-- The first `<` of a header stands behind the name, if there is a parent. -/
theorem headerLine_inj {c d : ClassOutline δ} (free : '<' ∉ c.name.toList)
    (free' : '<' ∉ d.name.toList) (same : headerLine c = headerLine d) :
    c.name = d.name ∧ c.parent = d.parent := by
  have lists := congrArg String.toList same
  cases parent : c.parent with
  | none =>
    cases parent' : d.parent with
    | none => exact ⟨by simpa [headerLine, parent, parent'] using same, rfl⟩
    | some p =>
      have long : c.name.toList = d.name.toList ++ ' ' :: '<' :: ' ' :: p.toList := by
        simpa [headerLine, parent, parent'] using lists
      exact absurd (by simp [long]) free
  | some p =>
    cases parent' : d.parent with
    | none =>
      have long : c.name.toList ++ ' ' :: '<' :: ' ' :: p.toList = d.name.toList := by
        simpa [headerLine, parent, parent'] using lists
      exact absurd (by simp [← long]) free'
    | some p' =>
      have whole : (c.name.toList ++ [' ']) ++ '<' :: ' ' :: p.toList =
          (d.name.toList ++ [' ']) ++ '<' :: ' ' :: p'.toList := by
        simpa [headerLine, parent, parent'] using lists
      obtain ⟨front, back⟩ :=
        append_cons_inj_of_not_mem (by simpa using free) (by simpa using free') whole
      exact ⟨String.toList_injective (List.append_cancel_right front),
        congrArg some (String.toList_injective (List.cons.inj back).2)⟩

theorem methodLine_inj {name name' : String} {params params' : List String}
    (free : '(' ∉ name.toList) (free' : '(' ∉ name'.toList)
    (commaFree : ∀ p ∈ params, ',' ∉ p.toList) (commaFree' : ∀ p ∈ params', ',' ∉ p.toList)
    (same : methodLine name params = methodLine name' params') :
    name = name' ∧ params = params' := by
  have lists := congrArg String.toList same
  cases params with
  | nil =>
    cases params' with
    | nil => exact ⟨by simpa [methodLine] using same, rfl⟩
    | cons p' ps' =>
      have long : name.toList =
          name'.toList ++ '(' :: ((String.intercalate ", " (p' :: ps')).toList ++ [')']) := by
        simpa [methodLine] using lists
      exact absurd (by simp [long]) free
  | cons p ps =>
    cases params' with
    | nil =>
      have long : name.toList ++ '(' :: ((String.intercalate ", " (p :: ps)).toList ++ [')']) =
          name'.toList := by
        simpa [methodLine] using lists
      exact absurd (by simp [← long]) free'
    | cons p' ps' =>
      have whole : name.toList ++ '(' :: ((String.intercalate ", " (p :: ps)).toList ++ [')']) =
          name'.toList ++ '(' :: ((String.intercalate ", " (p' :: ps')).toList ++ [')']) := by
        simpa [methodLine] using lists
      obtain ⟨front, back⟩ := append_cons_inj_of_not_mem free free' whole
      have joined := String.toList_injective (List.append_cancel_right back)
      exact ⟨String.toList_injective front,
        commaJoin_inj commaFree commaFree' (by simp) (by simp) joined⟩

theorem comma_not_mem_field (spec : ClassSpec) : ∀ field ∈ spec.fields, ',' ∉ field.toList := by
  intro field mem comma
  obtain ⟨name, rfl, usable⟩ := spec.validField field mem
  have inName : ',' ∉ name.toList := Naming.not_mem_of_usable usable (by decide)
  exact inName (by simpa using comma)

end RubyScaffold.Code
