import Mathlib.Data.List.Basic
import RubyScaffold.Naming.VariableName
import RubyScaffold.Unicode.Blank

/-!
What a usable name can be relied on for: it is not empty, only letters, numbers and underscores
stand in it, so no white space and no mark, and it is no reserved word.
-/

set_option autoImplicit false

namespace RubyScaffold.Naming

open Unicode

private theorem continuesName_of_startsName {c : Char} (starts : startsName c = true) :
    continuesName c = true := by
  simp only [startsName, Bool.or_eq_true] at starts
  rcases starts with letter | underscore
  · simp [continuesName, letter]
  · simp [continuesName, underscore]

def blankCodes : List Nat :=
  [0x09, 0x0a, 0x0b, 0x0c, 0x0d, 0x20, 0x85, 0xa0, 0x1680] ++ List.range' 0x2000 11 ++
    [0x2028, 0x2029, 0x202f, 0x205f, 0x3000]

private theorem mem_blankCodes_of_isBlank {c : Char} (blank : isBlank c = true) :
    c.toNat ∈ blankCodes := by
  simp only [isBlank, Bool.or_eq_true, Bool.and_eq_true, decide_eq_true_eq, beq_iff_eq] at blank
  simp only [blankCodes, List.mem_append, List.mem_cons, List.not_mem_nil, or_false,
    List.mem_range'_1]
  omega

theorem continuesName_of_isBlank {c : Char} (blank : isBlank c = true) :
    continuesName c = false := by
  have none : ∀ n ∈ blankCodes, continuesName (Char.ofNat n) = false := by decide +kernel
  have here := none c.toNat (mem_blankCodes_of_isBlank blank)
  rwa [Char.ofNat_toNat] at here

variable {name : String} (usable : nameFault? name = none)
include usable

theorem exists_head_of_usable : ∃ c rest, name.toList = c :: rest ∧ startsName c = true := by
  unfold nameFault? at usable
  cases chars : name.toList with
  | nil => simp [chars] at usable
  | cons first rest =>
    simp only [chars] at usable
    split_ifs at usable with digit start
    exact ⟨first, rest, rfl, by simpa using start⟩

theorem continuesName_of_usable : ∀ c ∈ name.toList, continuesName c = true := by
  unfold nameFault? at usable
  cases chars : name.toList with
  | nil => simp
  | cons first rest =>
    simp only [chars] at usable
    split_ifs at usable with digit start follow
    rw [Bool.not_eq_true', Bool.not_eq_false] at start follow
    intro c mem
    rcases List.mem_cons.mp mem with rfl | mem
    · exact continuesName_of_startsName start
    · exact List.all_eq_true.mp follow c mem

theorem isKeyword_of_usable : isKeyword name = false := by
  obtain ⟨first, rest, chars, -⟩ := exists_head_of_usable usable
  unfold nameFault? at usable
  simp only [chars] at usable
  split_ifs at usable with digit start follow reserved
  simpa using reserved

theorem not_mem_of_usable {c : Char} (mark : continuesName c = false) : c ∉ name.toList := by
  intro mem
  have follows := continuesName_of_usable usable c mem
  rw [mark] at follows
  cases follows

end RubyScaffold.Naming
