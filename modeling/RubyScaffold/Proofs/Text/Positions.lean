import Mathlib.Data.List.DropRight
import RubyScaffold.Text.Bytes

/-!
From a line and a column back to an offset. What was read of a text is some closed lines and the
start of one more; its place is found again unless that line has nothing in it at all.
-/

set_option autoImplicit false

namespace RubyScaffold.Text

def Closed (front : List UInt8) : Prop :=
  ∀ b ∈ front.getLast?, b = lineFeed

variable {front line rest : List UInt8}

theorem Closed.tail {b c : UInt8} {bs : List UInt8} (closed : Closed (b :: c :: bs)) :
    Closed (c :: bs) := by
  rwa [Closed, List.getLast?_cons_cons] at closed

theorem exists_closed_append (read : List UInt8) :
    ∃ front line, read = front ++ line ∧ Closed front ∧ lineFeed ∉ line ∧
      line.length = (read.reverse.takeWhile (· != lineFeed)).length := by
  -- the cut is behind the last line feed
  refine ⟨read.rdropWhile (· != lineFeed), read.rtakeWhile (· != lineFeed),
    List.rdropWhile_append_rtakeWhile.symm, ?_, ?_, by simp [List.rtakeWhile]⟩
  · intro b last
    obtain ⟨some, rfl⟩ := List.mem_getLast?_eq_getLast last
    simpa using List.rdropWhile_last_not (· != lineFeed) read some
  · intro mem
    have other := List.mem_rtakeWhile_imp mem
    simp at other

@[simp] theorem wholeLines_lineFeed (rest : List UInt8) :
    wholeLines (lineFeed :: rest) = [lineFeed] :: wholeLines rest := by
  rw [wholeLines, if_pos rfl]

theorem wholeLines_cons_of_ne {b : UInt8} (other : b ≠ lineFeed) {l : List UInt8}
    {ls : List (List UInt8)} (lines : wholeLines rest = l :: ls) :
    wholeLines (b :: rest) = (b :: l) :: ls := by
  rw [wholeLines, if_neg other, lines]

private theorem wholeLines_ne_nil (some : rest ≠ []) : wholeLines rest ≠ [] := by
  cases rest with
  | nil => exact absurd rfl some
  | cons b rest =>
    unfold wholeLines
    split
    · simp
    · cases wholeLines rest <;> simp

theorem flatten_wholeLines (text : List UInt8) : (wholeLines text).flatten = text := by
  induction text with
  | nil => rfl
  | cons b text ih =>
    unfold wholeLines
    split
    · simp [ih]
    · cases lines : wholeLines text with
      | nil =>
        rw [lines] at ih
        simp [← ih]
      | cons l ls =>
        rw [lines] at ih
        simpa using ih

theorem wholeLines_append (closed : Closed front) (back : List UInt8) :
    wholeLines (front ++ back) = wholeLines front ++ wholeLines back := by
  -- only the last byte must end a line, so the step looks at two bytes
  induction front with
  | nil => rfl
  | cons b front ih =>
    cases front with
    | nil =>
      obtain rfl : b = lineFeed := closed b rfl
      simp [wholeLines]
    | cons c front =>
      have rest := ih closed.tail
      by_cases same : b = lineFeed
      · rw [same, List.cons_append, wholeLines_lineFeed, wholeLines_lineFeed, rest,
          List.cons_append]
      · obtain ⟨l, ls, lines⟩ :=
          List.exists_cons_of_ne_nil (wholeLines_ne_nil (List.cons_ne_nil c front))
        have whole : wholeLines (c :: front ++ back) = l :: (ls ++ wholeLines back) := by
          rw [rest, lines, List.cons_append]
        rw [wholeLines_cons_of_ne same lines, List.cons_append, wholeLines_cons_of_ne same whole,
          List.cons_append]

theorem length_wholeLines (closed : Closed front) :
    (wholeLines front).length = front.count lineFeed := by
  induction front with
  | nil => rfl
  | cons b front ih =>
    cases front with
    | nil =>
      obtain rfl : b = lineFeed := closed b rfl
      simp [wholeLines]
    | cons c front =>
      have rest := ih closed.tail
      by_cases same : b = lineFeed
      · rw [same, wholeLines_lineFeed, List.length_cons, rest, List.count_cons_self]
      · obtain ⟨l, ls, lines⟩ :=
          List.exists_cons_of_ne_nil (wholeLines_ne_nil (List.cons_ne_nil c front))
        rw [lines] at rest
        rw [wholeLines_cons_of_ne same lines, List.count_cons_of_ne same, ← rest,
          List.length_cons, List.length_cons]

private theorem exists_wholeLines_cons (free : lineFeed ∉ line) (some : line ++ rest ≠ []) :
    ∃ more others, wholeLines (line ++ rest) = (line ++ more) :: others := by
  induction line with
  | nil =>
    obtain ⟨l, ls, lines⟩ := List.exists_cons_of_ne_nil (wholeLines_ne_nil some)
    exact ⟨l, ls, lines⟩
  | cons b line ih =>
    have other : b ≠ lineFeed := fun same => free (by simp [same])
    have freeRest : lineFeed ∉ line := fun mem => free (List.mem_cons_of_mem _ mem)
    by_cases none : line ++ rest = []
    · obtain ⟨rfl, rfl⟩ := List.append_eq_nil_iff.mp none
      exact ⟨[], [], by simp [wholeLines, other]⟩
    · obtain ⟨more, others, lines⟩ := ih freeRest none
      exact ⟨more, others, wholeLines_cons_of_ne other lines⟩

theorem offsetInLines_append (column start : Nat) (front back : List (List UInt8)) :
    offsetInLines column start front.length (front ++ back) =
      offsetInLines column (start + front.flatten.length) 0 back := by
  induction front generalizing start with
  | nil => simp
  | cons l ls ih =>
    rw [List.length_cons, List.cons_append, offsetInLines, ih]
    simp [Nat.add_assoc]

theorem offsetOf_append_of_le {column : Nat} (closed : Closed front) (free : lineFeed ∉ line)
    (filled : line ++ rest ≠ []) (inside : column - 1 ≤ line.length) :
    offsetOf (front ++ line ++ rest) (front.count lineFeed + 1) column =
      some (front.length + (column - 1)) := by
  have before := offsetInLines_append column 0 (wholeLines front) (wholeLines (line ++ rest))
  rw [length_wholeLines closed, flatten_wholeLines, Nat.zero_add] at before
  obtain ⟨more, others, own⟩ := exists_wholeLines_cons free filled
  have short : column - 1 ≤ (line ++ more).length := by
    rw [List.length_append]
    omega
  rw [offsetOf, List.append_assoc, wholeLines_append closed, before, own, offsetInLines,
    Nat.min_eq_left short]

/-- The place behind the bytes read of a line is found at the last of them, and at the start of the
line if there are none. A line that the text does not go on with is no line, and its start is no
place. -/
theorem offsetOf_append (closed : Closed front) (free : lineFeed ∉ line) (rest : List UInt8) :
    offsetOf (front ++ line ++ rest) (front.count lineFeed + 1) line.length =
      if line ++ rest = [] then none else some (front.length + (line.length - 1)) := by
  split
  · next none =>
    have before := offsetInLines_append line.length 0 (wholeLines front) (wholeLines (line ++ rest))
    rw [length_wholeLines closed, flatten_wholeLines] at before
    rw [offsetOf, List.append_assoc, wholeLines_append closed, before, none]
    rfl
  · next filled => exact offsetOf_append_of_le closed free filled (Nat.sub_le _ _)

end RubyScaffold.Text
