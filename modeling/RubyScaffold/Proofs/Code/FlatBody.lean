import RubyScaffold.Code.ClassBody
import RubyScaffold.Proofs.Layout.Joining

/-!
The body of a class as one run of sections. Its methods are joined by themselves before they become
a section of the class, which is the same as one section for every method.
-/

set_option autoImplicit false

namespace RubyScaffold.Code

open Layout

variable {δ : Type}

def methodSections (c : ClassOutline δ) : List (List Fragment) :=
  c.methods.entries.map fun m => Method.fragments { name := m.1, params := m.2.getD [] }

/-- The sections of a class, with the methods among them one by one. -/
def flatSections (c : ClassOutline δ) : List (List Fragment) :=
  [includeSection c, topSection c, constructorSection c] ++ methodSections c ++ [readerSection c]

private theorem methodSection_eq_separated (c : ClassOutline δ) :
    methodSection c = separated (methodSections c) :=
  rfl

private theorem classFragments_eq_flat (c : ClassOutline δ) :
    classFragments c = [.block (classHeader c) (separated (flatSections c)) (some "end")] := by
  have grouped : separated (flatSections c) = separated [includeSection c, topSection c,
      constructorSection c, separated (methodSections c), readerSection c] := by
    have groups := separated_flatten [[includeSection c], [topSection c], [constructorSection c],
      methodSections c, [readerSection c]]
    simpa [flatSections, separated_singleton] using groups
  rw [classFragments, methodSection_eq_separated, grouped]

/-- Joining sections loses nothing. Two runs of sections can be joined by themselves first, as the
methods are inside a class. Sections without empty lines of their own come back, in order and
without the empty ones, where the joined sections are taken apart at their empty lines. And the
joined sections neither start nor end with an empty line nor have two of them next to each other
exactly if this holds of each section. -/
theorem separated_lossless (a b sections : List (List Fragment)) (c : ClassOutline δ) :
    separated (a ++ b) = separated [separated a, separated b] ∧
    classFragments c = [.block (classHeader c) (separated (flatSections c)) (some "end")] ∧
    ((∀ part ∈ sections, .blank ∉ part) →
      parts (separated sections) = sections.filter fun part => !part.isEmpty) ∧
    (Spaced .blank (separated sections) ↔ ∀ part ∈ sections, Spaced .blank part) := by
  refine ⟨?_, classFragments_eq_flat c, parts_separated_of_free, spaced_separated_iff sections⟩
  simpa using separated_flatten [a, b]

/-- Sections with empty ones among them. The empty line inside a block is none of its section. -/
def drawers : List (List Fragment) :=
  [[], [.line "spoons"], [], [.comment "forks", .block "if silver" [.blank] (some "end")], []]

def chest : ClassOutline String where
  name := "Chest"
  includes := ["Lockable"]
  fields := ["@key"]
  methods := ⟨[("open", none), ("fill", some ["cup"])], by simp⟩

theorem separated_lossless_drawers :
    (∀ part ∈ drawers, .blank ∉ part) ∧
      separated (drawers ++ [[.line "knives"]]) = separated [separated drawers, [.line "knives"]] ∧
      parts (separated drawers) =
        [[.line "spoons"], [.comment "forks", .block "if silver" [.blank] (some "end")]] ∧
      Spaced .blank (separated drawers) ∧
      classFragments chest = [.block "class Chest" (separated (flatSections chest)) (some "end")] ∧
      (flatSections chest).length = 6 := by
  have free : ∀ part ∈ drawers, .blank ∉ part := by simp [drawers]
  obtain ⟨nested, flat, split, spaced⟩ :=
    separated_lossless drawers [[.line "knives"]] drawers chest
  exact ⟨free, nested, split free, spaced.mpr fun part mem => .of_not_mem (free part mem), flat, rfl⟩

end RubyScaffold.Code
