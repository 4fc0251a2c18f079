import RubyScaffold.Proofs.Code.Reference

/-!
The sections of a class around one that has rows: those above it stand with an empty row after each,
those below it with an empty row before each, and sections without rows are not there at all.
-/

set_option autoImplicit false

namespace RubyScaffold.Code

def ledRows (rows : List String) : List String :=
  if rows.isEmpty then [] else "" :: rows

private theorem intercalate_sections_behind (rows : List String) (below : List (List String)) :
    [""].intercalate (rows :: below.filter fun part => !part.isEmpty) =
      rows ++ below.flatMap ledRows := by
  induction below generalizing rows with
  | nil => simp
  | cons part below ih =>
    cases part with
    | nil => simpa [ledRows] using ih rows
    | cons r part =>
      have kept : ((r :: part) :: below).filter (fun part => !part.isEmpty) =
          (r :: part) :: below.filter fun part => !part.isEmpty := rfl
      rw [kept, List.intercalate_cons_cons, ih]
      simp [ledRows]

/-- Sections of which one has rows: the others stand around it, those with rows each with an empty
row on the side of that one. -/
theorem intercalate_sections_around (above : List (List String)) {rows : List String}
    (some : rows ≠ []) (below : List (List String)) :
    [""].intercalate ((above ++ rows :: below).filter fun part => !part.isEmpty) =
      above.flatMap groupRows ++ rows ++ below.flatMap ledRows := by
  induction above with
  | nil =>
    have kept : ([] ++ rows :: below).filter (fun part => !part.isEmpty) =
        rows :: below.filter fun part => !part.isEmpty :=
      List.filter_cons_of_pos (by simpa using some)
    rw [kept, intercalate_sections_behind]
    rfl
  | cons part above ih =>
    cases part with
    | nil => simpa [groupRows] using ih
    | cons r part =>
      have more : ((above ++ rows :: below).filter fun part => !part.isEmpty) ≠ [] :=
        List.ne_nil_of_mem (a := rows) (List.mem_filter.mpr ⟨by simp, by simpa using some⟩)
      have kept : ((r :: part) :: above ++ rows :: below).filter (fun part => !part.isEmpty) =
          (r :: part) :: (above ++ rows :: below).filter fun part => !part.isEmpty := rfl
      rw [kept, List.intercalate_cons_of_ne_nil more, ih]
      simp [groupRows]

end RubyScaffold.Code
