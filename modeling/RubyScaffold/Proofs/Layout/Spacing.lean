import Mathlib.Data.List.Chain

/-!
Lists with gaps in them: a list is well spaced if it neither starts nor ends with a gap and no two
gaps are neighbours. Putting well spaced lists one behind the other, or joining them by a gap, gives
well spaced lists again.
-/

set_option autoImplicit false

namespace RubyScaffold.Layout

variable {α : Type} {gap : α} {xs ys : List α}

/-- Whether a list neither starts nor ends with a gap and has no two gaps next to each other. -/
structure Spaced (gap : α) (xs : List α) : Prop where
  first : xs.head? ≠ some gap
  last : xs.getLast? ≠ some gap
  apart : xs.IsChain fun x y => x ≠ gap ∨ y ≠ gap

namespace Spaced

theorem nil : Spaced gap [] :=
  ⟨by simp, by simp, .nil⟩

theorem of_not_mem (free : gap ∉ xs) : Spaced gap xs where
  first := fun head => free (List.mem_of_mem_head? head)
  last := fun last => free (List.mem_of_getLast? last)
  apart := by
    induction xs with
    | nil => exact .nil
    | cons x xs ih =>
      have own : x ≠ gap := fun same => free (same ▸ List.mem_cons_self)
      have rest := ih fun mem => free (List.mem_cons_of_mem _ mem)
      exact List.isChain_cons.mpr ⟨fun _ _ => .inl own, rest⟩

theorem append (front : Spaced gap xs) (back : Spaced gap ys) : Spaced gap (xs ++ ys) where
  first := by
    intro head
    rw [List.head?_append] at head
    rcases Option.or_eq_some_iff.mp head with head | ⟨-, head⟩
    · exact front.first head
    · exact back.first head
  last := by
    intro last
    rw [List.getLast?_append] at last
    rcases Option.or_eq_some_iff.mp last with last | ⟨-, last⟩
    · exact back.last last
    · exact front.last last
  apart := by
    refine List.isChain_append.mpr ⟨front.apart, back.apart, fun x last y _ => .inl ?_⟩
    rintro rfl
    exact front.last last

theorem join (someX : xs ≠ []) (someY : ys ≠ []) (front : Spaced gap xs) (back : Spaced gap ys) :
    Spaced gap (xs ++ gap :: ys) where
  first := by
    rw [List.head?_append_of_ne_nil _ someX]
    exact front.first
  last := by
    rw [List.getLast?_append_of_ne_nil _ (List.cons_ne_nil _ _), List.getLast?_cons_of_ne_nil someY]
    exact back.last
  apart := by
    have tail : (gap :: ys).IsChain fun x y => x ≠ gap ∨ y ≠ gap := by
      refine List.isChain_cons.mpr ⟨fun y head => .inr ?_, back.apart⟩
      rintro rfl
      exact back.first head
    refine List.isChain_append.mpr ⟨front.apart, tail, fun x last y _ => .inl ?_⟩
    rintro rfl
    exact front.last last

theorem of_join (someX : xs ≠ []) (someY : ys ≠ []) (whole : Spaced gap (xs ++ gap :: ys)) :
    Spaced gap xs ∧ Spaced gap ys := by
  have head : xs.head? ≠ some gap := List.head?_append_of_ne_nil _ someX ▸ whole.first
  have last : ys.getLast? ≠ some gap := by
    have behind := whole.last
    rwa [List.getLast?_append_of_ne_nil _ (List.cons_ne_nil _ _),
      List.getLast?_cons_of_ne_nil someY] at behind
  -- the gap has a neighbour on each side, and neither of them is a gap too
  obtain ⟨apartX, tail, before⟩ := List.isChain_append.mp whole.apart
  obtain ⟨behind, apartY⟩ := List.isChain_cons.mp tail
  exact ⟨⟨head, fun same => (before gap same gap rfl).elim (· rfl) (· rfl), apartX⟩,
    ⟨fun same => (behind gap same).elim (· rfl) (· rfl), last, apartY⟩⟩

theorem join_iff (someX : xs ≠ []) (someY : ys ≠ []) :
    Spaced gap (xs ++ gap :: ys) ↔ Spaced gap xs ∧ Spaced gap ys :=
  ⟨of_join someX someY, fun ⟨front, back⟩ => join someX someY front back⟩

theorem intercalate {blocks : List (List α)}
    (whole : ∀ block ∈ blocks, block ≠ [] ∧ Spaced gap block) :
    Spaced gap ([gap].intercalate blocks) := by
  induction blocks with
  | nil => exact nil
  | cons block blocks ih =>
    obtain ⟨some, own⟩ := whole block List.mem_cons_self
    have rest := ih fun other mem => whole other (List.mem_cons_of_mem _ mem)
    cases blocks with
    | nil => simpa using own
    | cons next blocks =>
      have more : [gap].intercalate (next :: blocks) ≠ [] := by
        have full := (whole next (by simp)).1
        cases blocks <;> simp [full]
      rw [List.intercalate_cons_cons, List.append_assoc]
      exact join some more own rest

end Spaced

end RubyScaffold.Layout
