import Mathlib.Data.List.Basic
import RubyScaffold.Proofs.Layout.Rows
import RubyScaffold.Text.Pieces

/-!
Texts and lists that can be taken apart again: what a boundary, a separator or a line feed that
occurs nowhere else divides, it divides in one way only.
-/

set_option autoImplicit false

namespace RubyScaffold.Text

variable {α : Type}

/-- A run of elements of one kind, ended by one of another kind, is determined by the whole. -/
theorem append_inj_of_boundary {p : α → Prop} {xs ys zs ws : List α} (allX : ∀ x ∈ xs, p x)
    (allY : ∀ y ∈ ys, p y) (endX : ∀ z ∈ zs.head?, ¬ p z) (endY : ∀ w ∈ ws.head?, ¬ p w)
    (same : xs ++ zs = ys ++ ws) : xs = ys ∧ zs = ws := by
  induction xs generalizing ys with
  | nil =>
    cases ys with
    | nil => exact ⟨rfl, same⟩
    | cons y ys =>
      rw [List.nil_append] at same
      exact absurd (allY y List.mem_cons_self) (endX y (by simp [same]))
  | cons x xs ih =>
    cases ys with
    | nil =>
      rw [List.nil_append] at same
      exact absurd (allX x List.mem_cons_self) (endY x (by simp [← same]))
    | cons y ys =>
      rw [List.cons_append, List.cons_append] at same
      obtain ⟨rfl, tails⟩ := List.cons.inj same
      obtain ⟨rfl, rest⟩ := ih (fun x mem => allX x (List.mem_cons_of_mem _ mem))
        (fun y mem => allY y (List.mem_cons_of_mem _ mem)) tails
      exact ⟨rfl, rest⟩

theorem append_cons_inj_of_not_mem {a : α} {xs ys zs ws : List α} (freeX : a ∉ xs)
    (freeY : a ∉ ys) (same : xs ++ a :: zs = ys ++ a :: ws) : xs = ys ∧ zs = ws := by
  obtain ⟨front, back⟩ := append_inj_of_boundary (p := (· ≠ a))
    (fun x mem eq => freeX (eq ▸ mem)) (fun y mem eq => freeY (eq ▸ mem)) (by simp) (by simp) same
  exact ⟨front, (List.cons.inj back).2⟩

theorem intercalate_append_of_ne_nil {sep : List α} {xs ys : List (List α)} (someX : xs ≠ [])
    (someY : ys ≠ []) :
    sep.intercalate (xs ++ ys) = sep.intercalate xs ++ sep ++ sep.intercalate ys := by
  induction xs with
  | nil => exact absurd rfl someX
  | cons x xs ih =>
    cases xs with
    | nil => simp [List.intercalate_cons_of_ne_nil someY]
    | cons x' xs =>
      have rest := ih (by simp)
      rw [List.cons_append] at rest
      simp [rest]

theorem intercalate_cons_eq_append (a : α) (block : List α) (blocks : List (List α)) :
    [a].intercalate (block :: blocks) = block ++ blocks.flatMap (a :: ·) := by
  induction blocks generalizing block with
  | nil => simp
  | cons next blocks ih => simp [List.intercalate_cons_cons, ih]

theorem intercalate_flatten (sep : List α) {sections : List (List (List α))}
    (filled : ∀ part ∈ sections, part ≠ []) :
    sep.intercalate (sections.map sep.intercalate) = sep.intercalate sections.flatten := by
  induction sections with
  | nil => rfl
  | cons part sections ih =>
    have rest := ih fun part mem => filled part (List.mem_cons_of_mem _ mem)
    cases sections with
    | nil => simp
    | cons next sections =>
      have more : (next :: sections).flatten ≠ [] := by
        have full := filled next (by simp)
        simp [full]
      rw [List.map_cons, List.flatten_cons,
        intercalate_append_of_ne_nil (filled part List.mem_cons_self) more,
        List.intercalate_cons_of_ne_nil (by simp), rest]

theorem intercalate_eq_nil_iff {sep : List α} {blocks : List (List α)}
    (whole : ∀ block ∈ blocks, block ≠ []) : sep.intercalate blocks = [] ↔ blocks = [] := by
  cases blocks with
  | nil => simp
  | cons block blocks =>
    have full := whole block List.mem_cons_self
    cases blocks <;> simp [full]

/-- Joining sections of blocks, with the sections that have none left out, joins all the
blocks. -/
theorem intercalate_sections (sep : List α) {sections : List (List (List α))}
    (whole : ∀ part ∈ sections, ∀ block ∈ part, block ≠ []) :
    sep.intercalate ((sections.map sep.intercalate).filter fun part => !part.isEmpty) =
      sep.intercalate sections.flatten := by
  have same : ∀ part ∈ sections, (!(sep.intercalate part).isEmpty) = !part.isEmpty := by
    intro part mem
    have iff : sep.intercalate part = [] ↔ part = [] := intercalate_eq_nil_iff (whole part mem)
    rw [Bool.eq_iff_iff]
    simp [iff]
  rw [List.filter_map, List.filter_congr (q := fun part => !part.isEmpty) same,
    intercalate_flatten sep (by simp), List.flatten_filter_not_isEmpty]

theorem intercalate_inj [DecidableEq α] {a : α} {xs ys : List (List α)}
    (blockX : ∀ x ∈ xs, x ≠ [] ∧ a ∉ x) (blockY : ∀ y ∈ ys, y ≠ [] ∧ a ∉ y)
    (same : [a].intercalate xs = [a].intercalate ys) : xs = ys := by
  have read : ∀ zs : List (List α), (∀ z ∈ zs, z ≠ [] ∧ a ∉ z) →
      zs = (([a].intercalate zs).splitOn a).filter fun z => !z.isEmpty := by
    intro zs block
    by_cases none : zs = []
    · simp [none]
    · rw [List.splitOn_intercalate a (fun z mem => (block z mem).2) none]
      exact (List.filter_eq_self.mpr fun z mem => by simpa using (block z mem).1).symm
  rw [read xs blockX, read ys blockY, same]

theorem mem_intercalate {a r : α} {blocks : List (List α)} (mem : r ∈ [a].intercalate blocks) :
    r = a ∨ ∃ block ∈ blocks, r ∈ block := by
  induction blocks with
  | nil => simp at mem
  | cons block blocks ih =>
    cases blocks with
    | nil => exact .inr ⟨block, by simp, by simpa using mem⟩
    | cons next blocks =>
      rw [List.intercalate_cons_cons, List.mem_append, List.mem_append] at mem
      rcases mem with (mem | mem) | mem
      · exact .inr ⟨block, by simp, mem⟩
      · exact .inl (List.mem_singleton.mp mem)
      · exact (ih mem).imp_right fun ⟨other, memOther, inside⟩ =>
          ⟨other, List.mem_cons_of_mem _ memOther, inside⟩

theorem map_eq_of_map_eq {β γ : Type} {f : α → β} {g : α → γ} {xs ys : List α}
    (determined : ∀ x ∈ xs, ∀ y ∈ ys, f x = f y → g x = g y) (same : xs.map f = ys.map f) :
    xs.map g = ys.map g := by
  induction xs generalizing ys with
  | nil => simpa [eq_comm] using same
  | cons x xs ih =>
    cases ys with
    | nil => simp at same
    | cons y ys =>
      obtain ⟨first, rest⟩ := List.cons.inj same
      rw [List.map_cons, List.map_cons,
        determined x List.mem_cons_self y List.mem_cons_self first,
        ih (fun x memX y memY => determined x (List.mem_cons_of_mem _ memX) y
          (List.mem_cons_of_mem _ memY)) rest]

theorem intercalate_append (sep : List α) (blocks : List (List α)) (behind : List α) :
    sep.intercalate blocks ++ behind =
      sep.intercalate (blocks.dropLast ++ [blocks.getLastD [] ++ behind]) := by
  induction blocks with
  | nil => simp
  | cons block blocks ih =>
    cases blocks with
    | nil => simp
    | cons next blocks =>
      have more : (next :: blocks).dropLast ++ [(next :: blocks).getLastD [] ++ behind] ≠ [] := by
        simp
      have last : (block :: next :: blocks).getLastD [] = (next :: blocks).getLastD [] := rfl
      rw [List.intercalate_cons_cons, List.append_assoc, ih, last, List.dropLast_cons_cons,
        List.cons_append, List.intercalate_cons_of_ne_nil more]

theorem pieces_eq_splitOn (sep : Char) (cs : List Char) : pieces sep cs = cs.splitOn sep := by
  induction cs with
  | nil => rfl
  | cons c rest ih =>
    rw [pieces, List.splitOn_cons_eq_if_modifyHead, ih]
    by_cases same : c = sep
    · simp [same]
    · cases split : rest.splitOn sep with
      | nil => exact absurd split (List.splitOn_ne_nil sep rest)
      | cons p ps => simp [same]

theorem not_mem_of_mem_splitOn [DecidableEq α] {a : α} {xs piece : List α}
    (mem : piece ∈ xs.splitOn a) : a ∉ piece := by
  induction xs generalizing piece with
  | nil =>
    obtain rfl : piece = [] := by simpa using mem
    simp
  | cons x rest ih =>
    rw [List.splitOn_cons_eq_if_modifyHead] at mem
    cases split : rest.splitOn a with
    | nil => exact absurd split (List.splitOn_ne_nil a rest)
    | cons p ps =>
      rw [split] at mem
      have first : a ∉ p := ih (by simp [split])
      have others : ∀ q ∈ ps, a ∉ q := fun q later => ih (by simp [split, later])
      split at mem
      · rcases List.mem_cons.mp mem with rfl | mem
        · simp
        · exact ih (split ▸ mem)
      · next other =>
        have differs : a ≠ x := fun same => other (by simp [same])
        rcases List.mem_cons.mp mem with rfl | mem
        · simp [differs, first]
        · exact others piece mem

theorem lines_eq_singleton {s : String} (plain : '\n' ∉ s.toList) : lines s = [s] := by
  simp [lines, pieces_eq_splitOn, List.splitOn_eq_singleton plain]

theorem lineFeed_not_mem_line {s line : String} (mem : line ∈ lines s) : '\n' ∉ line.toList := by
  obtain ⟨piece, memPiece, rfl⟩ := List.mem_map.mp mem
  rw [pieces_eq_splitOn] at memPiece
  simpa using not_mem_of_mem_splitOn memPiece

theorem lines_append (front back : String) :
    lines (front ++ "\n" ++ back) = lines front ++ lines back := by
  have text : (front ++ "\n" ++ back).toList = front.toList ++ '\n' :: back.toList := by simp
  simp only [lines, pieces_eq_splitOn, text, List.splitOn_append_cons_self, List.map_append]

theorem lines_ofRows (rows : List String) :
    lines (Layout.ofRows rows) = rows.flatMap lines ++ [""] := by
  induction rows with
  | nil => simpa using lines_eq_singleton (s := "") (by simp)
  | cons r rows ih => rw [Layout.ofRows_cons, lines_append, ih, List.flatMap_cons, List.append_assoc]

theorem intercalate_rows (rows : List String) :
    String.intercalate "\n" (rows ++ [""]) = Layout.ofRows rows := by
  induction rows with
  | nil => simp
  | cons r rows ih =>
    rw [List.cons_append, String.intercalate_cons_of_ne_nil (by simp), ih, Layout.ofRows_cons]

theorem flatMap_lines_eq_self {rows : List String} (plain : ∀ r ∈ rows, '\n' ∉ r.toList) :
    rows.flatMap lines = rows := by
  calc rows.flatMap lines
      = rows.flatMap fun r => [r] :=
        List.flatMap_congr fun r mem => lines_eq_singleton (plain r mem)
    _ = rows := List.flatMap_singleton' rows

theorem ofRows_inj {rows more : List String} (plain : ∀ r ∈ rows, '\n' ∉ r.toList)
    (plainMore : ∀ r ∈ more, '\n' ∉ r.toList) (same : Layout.ofRows rows = Layout.ofRows more) :
    rows = more := by
  have lists := lines_ofRows rows
  rw [same, lines_ofRows, flatMap_lines_eq_self plain, flatMap_lines_eq_self plainMore] at lists
  exact (List.append_cancel_right lists).symm

end RubyScaffold.Text
