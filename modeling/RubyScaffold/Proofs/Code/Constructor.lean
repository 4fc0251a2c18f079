import RubyScaffold.Proofs.Code.Lines

/-!
The constructor that instance variables bring. Its keywords are the instance variables without their
sigils, and each is looked at by itself when a class is checked: none is a reserved word, but the
check does not see that one comes twice or that Ruby reads one as a constant.
-/

set_option autoImplicit false

namespace RubyScaffold

namespace Code

/-- The keyword of a parameter: what stands before its colon. -/
def keywordOf (param : String) : String :=
  String.ofList (param.toList.takeWhile (· ≠ ':'))

/-- The variable that an assignment sets: what stands before its first space. -/
def variableSetBy (line : String) : String :=
  String.ofList (line.toList.takeWhile (· ≠ ' '))

namespace Method

def keywords (m : Method) : List String :=
  m.params.map keywordOf

def variablesSet (m : Method) : List String :=
  m.body.map variableSetBy

/-- What Ruby asks of a method that sets variables from keywords: the keywords differ and each
variable is set once, no keyword is a reserved word, and none starts with a capital, as constants
do. -/
structure Definable (m : Method) : Prop where
  distinct : m.keywords.Nodup
  once : ∀ v ∈ m.variablesSet, m.variablesSet.count v = 1
  unreserved : ∀ k ∈ m.keywords, Naming.isKeyword k = false
  notConstant : ∀ k ∈ m.keywords, ∀ c ∈ k.toList.head?, c.isUpper = false

end Method

private theorem takeWhile_append_mark {mark : Char} {xs rest : List Char} (free : mark ∉ xs) :
    (xs ++ mark :: rest).takeWhile (· ≠ mark) = xs := by
  have all : ∀ x ∈ xs, decide (x ≠ mark) = true := by
    intro x mem
    exact decide_eq_true fun same => free (same ▸ mem)
  rw [List.takeWhile_append_of_pos all]
  simp

variable {name : String} (usable : Naming.nameFault? name = none)
include usable

private theorem keywordOf_usable : keywordOf (name ++ ":") = name := by
  have free : ':' ∉ name.toList := Naming.not_mem_of_usable usable (by decide)
  have text : (name ++ ":").toList = name.toList ++ ':' :: [] := by simp
  rw [keywordOf, text, takeWhile_append_mark free, String.ofList_toList]

private theorem variableSetBy_usable :
    variableSetBy ("@" ++ name ++ " = " ++ name) = "@" ++ name := by
  have free : ' ' ∉ ("@" ++ name).toList := by
    have inName : ' ' ∉ name.toList := Naming.not_mem_of_usable usable (by decide)
    simpa using inName
  have text : ("@" ++ name ++ " = " ++ name).toList =
      ("@" ++ name).toList ++ ' ' :: '=' :: ' ' :: name.toList := by simp
  rw [variableSetBy, text, takeWhile_append_mark free, String.ofList_toList]

end Code

namespace ClassSpec

open Code

theorem usable_fieldNames (spec : ClassSpec) :
    ∀ name ∈ spec.fieldNames, Naming.nameFault? name = none := by
  intro name mem
  obtain ⟨field, memField, rfl⟩ := List.mem_map.mp mem
  obtain ⟨own, rfl, usable⟩ := spec.validField field memField
  rwa [ClassOutline.bareField?_eq_some_iff.mpr rfl]

private theorem keywords_constructor (spec : ClassSpec) :
    (constructor spec.fieldNames).keywords = spec.fieldNames := by
  have each : ∀ name ∈ spec.fieldNames, keywordOf (name ++ ":") = name :=
    fun name mem => keywordOf_usable (spec.usable_fieldNames name mem)
  calc (constructor spec.fieldNames).keywords
      = spec.fieldNames.map fun name => keywordOf (name ++ ":") := List.map_map
    _ = spec.fieldNames.map id := List.map_congr_left each
    _ = spec.fieldNames := List.map_id _

private theorem variablesSet_constructor (spec : ClassSpec) :
    (constructor spec.fieldNames).variablesSet = spec.fields := by
  have each : ∀ name ∈ spec.fieldNames,
      variableSetBy ("@" ++ name ++ " = " ++ name) = "@" ++ name :=
    fun name mem => variableSetBy_usable (spec.usable_fieldNames name mem)
  calc (constructor spec.fieldNames).variablesSet
      = spec.fieldNames.map fun name => variableSetBy ("@" ++ name ++ " = " ++ name) :=
        List.map_map
    _ = spec.fieldNames.map ("@" ++ ·) := List.map_congr_left each
    _ = spec.fields := sigiled_fieldNames spec

theorem signature_constructor (spec : ClassSpec) (some : spec.fields ≠ []) :
    (constructor spec.fieldNames).signature =
      "def initialize(" ++ String.intercalate ", " (spec.fieldNames.map (· ++ ":")) ++ ")" := by
  have params : (spec.fieldNames.map (· ++ ":")).isEmpty = false := by
    simpa [ClassOutline.fieldNames] using some
  have word : "def " ++ "initialize" ++ "(" = "def initialize(" := by decide
  simp only [Method.signature, constructor, params, Bool.false_eq_true, if_false, constructorName,
    word]

/-- The constructor of an accepted class has its instance variables for keywords, sets each of them
in order, and has no keyword that is a reserved word. Ruby can define it exactly if the class names
no instance variable twice and none with a capital behind its sigil. -/
theorem constructor_definable_iff (spec : ClassSpec) (some : spec.fields ≠ []) :
    let m := constructor spec.fieldNames
    constructorSection spec.toClassOutline = m.fragments ∧
    m.signature =
      "def initialize(" ++ String.intercalate ", " (m.keywords.map (· ++ ":")) ++ ")" ∧
    m.keywords.map ("@" ++ ·) = spec.fields ∧ m.variablesSet = spec.fields ∧
    (∀ k ∈ m.keywords, Naming.isKeyword k = false) ∧
    (m.Definable ↔
      spec.fields.Nodup ∧ ∀ field ∈ spec.fields, ∀ c ∈ field.toList[1]?, c.isUpper = false) := by
  intro m
  have keywords : m.keywords = spec.fieldNames := spec.keywords_constructor
  have set : m.variablesSet = spec.fields := spec.variablesSet_constructor
  have fields : spec.fieldNames.map ("@" ++ ·) = spec.fields := by rw [fieldNames_eq, ← fields_eq]
  have unreserved : ∀ k ∈ m.keywords, Naming.isKeyword k = false := by
    intro k mem
    rw [keywords] at mem
    exact Naming.isKeyword_of_usable (spec.usable_fieldNames k mem)
  have distinct : m.keywords.Nodup ↔ spec.fields.Nodup := by
    have injective : Function.Injective fun name : String => "@" ++ name :=
      fun _ _ => (String.append_right_inj _).mp
    rw [keywords, ← fields, List.nodup_map_iff injective]
  have constants : (∀ k ∈ m.keywords, ∀ c ∈ k.toList.head?, c.isUpper = false) ↔
      ∀ field ∈ spec.fields, ∀ c ∈ field.toList[1]?, c.isUpper = false := by
    rw [keywords, ← fields, List.forall_mem_map]
    simp [List.head?_eq_getElem?]
  refine ⟨?_, ?_, ?_, set, unreserved, ?_⟩
  · have filled : spec.fields.isEmpty = false := List.isEmpty_eq_false_iff.mpr some
    simp only [constructorSection, filled, Bool.false_eq_true, if_false, m]
  · rw [keywords]
    exact spec.signature_constructor some
  · rw [keywords, fields]
  · constructor
    · intro definable
      exact ⟨distinct.mp definable.distinct, constants.mp definable.notConstant⟩
    · rintro ⟨apart, small⟩
      exact ⟨distinct.mpr apart, by rw [set]; exact fun v => List.count_eq_one_of_mem apart,
        unreserved, constants.mpr small⟩

def accentedGreeter : ClassSpec :=
  ⟨{ name := "Greeter", fields := ["@name", "@_1", "@élan"] }, by decide +kernel⟩

theorem constructor_definable_iff_accented :
    accentedGreeter.fields ≠ [] ∧ (constructor accentedGreeter.fieldNames).Definable := by
  have some : accentedGreeter.fields ≠ [] := List.cons_ne_nil _ _
  obtain ⟨-, -, -, -, -, definable⟩ := constructor_definable_iff accentedGreeter some
  have small : ∀ field ∈ accentedGreeter.fields, ∀ c ∈ field.toList[1]?, c.isUpper = false := by
    intro field mem
    simp only [accentedGreeter, List.mem_cons, List.not_mem_nil, or_false] at mem
    rcases mem with rfl | rfl | rfl <;> simp
  exact ⟨some, definable.mpr ⟨by decide, small⟩⟩

def twinGreeter : ClassSpec :=
  ⟨{ name := "Greeter", fields := ["@name", "@name"] }, rfl⟩

def capitalGreeter : ClassSpec :=
  ⟨{ name := "Greeter", fields := ["@Name"] }, rfl⟩

/-- The check of a class lets pass a constructor with a keyword that comes twice, and one with a
keyword that reads as a constant. -/
theorem twin_and_capital_keywords :
    (constructor twinGreeter.fieldNames).signature = "def initialize(name:, name:)" ∧
    ¬ (constructor twinGreeter.fieldNames).keywords.Nodup ∧
    (constructor twinGreeter.fieldNames).variablesSet.count "@name" = 2 ∧
    (constructor capitalGreeter.fieldNames).signature = "def initialize(Name:)" ∧
    (constructor capitalGreeter.fieldNames).keywords = ["Name"] ∧ 'N'.isUpper = true := by
  decide +kernel

end ClassSpec

end RubyScaffold
