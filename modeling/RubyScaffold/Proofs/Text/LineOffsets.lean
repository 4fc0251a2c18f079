import RubyScaffold.Proofs.Text.Positions

/-!
Offsets against lines and columns. The line and the column of an offset lead back to it, and every
column of a line that is there leads to an offset in the line.
-/

set_option autoImplicit false

namespace RubyScaffold.Text

instance (bs : List UInt8) : Decidable (Closed bs) :=
  decidable_of_iff (bs.getLast?.all (· == lineFeed) = true) (by
    cases last : bs.getLast? <;> simp [Closed, last])

/-- How many lines a text has: one for each line feed, and one more if the text does not end with
the end of a line. -/
def lineCount (text : List UInt8) : Nat :=
  text.count lineFeed + if Closed text then 0 else 1

/-- Whether some bytes are a line of a text, with what stands before and behind it. The line has a
line feed at its end and nowhere else, and lacks it only if nothing stands behind. -/
structure LineOf (text front line rest : List UInt8) : Prop where
  whole : text = front ++ line ++ rest
  closed : Closed front
  filled : line ≠ []
  plain : lineFeed ∉ line.dropLast
  ended : rest ≠ [] → Closed line

variable {text front line rest : List UInt8}

private theorem closed_append_iff (closed : Closed front) :
    Closed (front ++ rest) ↔ Closed rest := by
  cases rest using List.reverseRecOn with
  | nil => simpa [Closed] using closed
  | append_singleton others b => simp [Closed, ← List.append_assoc]

private theorem closed_iff_of_free (free : lineFeed ∉ line) : Closed line ↔ line = [] := by
  constructor
  · intro closed
    by_contra filled
    have last := List.getLast?_eq_some_getLast filled
    exact free (closed _ last ▸ List.getLast_mem filled)
  · rintro rfl
    simp [Closed]

private theorem lineCount_append (closed : Closed front) :
    lineCount (front ++ rest) = front.count lineFeed + lineCount rest := by
  rw [lineCount, lineCount, List.count_append, Nat.add_assoc]
  simp only [closed_append_iff closed]

private theorem wholeLines_line (filled : line ≠ []) (plain : lineFeed ∉ line.dropLast)
    (ended : rest ≠ [] → Closed line) : wholeLines (line ++ rest) = line :: wholeLines rest := by
  induction line with
  | nil => exact absurd rfl filled
  | cons b line ih =>
    cases line with
    | nil =>
      by_cases same : b = lineFeed
      · rw [same, List.singleton_append, wholeLines_lineFeed]
      · have none : rest = [] := by
          by_contra more
          exact same (ended more b rfl)
        simp [none, wholeLines, same]
    | cons c line =>
      simp only [List.dropLast_cons_cons, List.mem_cons, not_or] at plain
      have later := ih (List.cons_ne_nil c line) plain.2 fun more => (ended more).tail
      exact wholeLines_cons_of_ne (Ne.symm plain.1) later

private theorem length_wholeLines_eq (text : List UInt8) :
    (wholeLines text).length = lineCount text := by
  obtain ⟨front, line, rfl, closed, free, -⟩ := exists_closed_append text
  rw [wholeLines_append closed, List.length_append, length_wholeLines closed,
    lineCount_append closed, lineCount, List.count_eq_zero_of_not_mem free, Nat.zero_add]
  by_cases filled : line = []
  · rw [if_pos ((closed_iff_of_free free).mpr filled), filled]
    rfl
  · have plain : lineFeed ∉ line.dropLast := fun mem => free (List.dropLast_subset line mem)
    have own : wholeLines (line ++ []) = line :: wholeLines [] :=
      wholeLines_line filled plain fun none => absurd rfl none
    rw [List.append_nil] at own
    rw [if_neg (filled ∘ (closed_iff_of_free free).mp), own]
    rfl

private theorem LineOf.wholeLines_eq (own : LineOf text front line rest) :
    wholeLines text = wholeLines front ++ line :: wholeLines rest := by
  rw [own.whole, List.append_assoc, wholeLines_append own.closed,
    wholeLines_line own.filled own.plain own.ended]

/-- The offset of a column of a line lies in the line or at its end. -/
private theorem LineOf.offsetOf_eq (own : LineOf text front line rest) (column : Nat) :
    offsetOf text (front.count lineFeed + 1) column =
      some (front.length + min (column - 1) line.length) := by
  have before := offsetInLines_append column 0 (wholeLines front) (line :: wholeLines rest)
  rw [length_wholeLines own.closed, flatten_wholeLines, Nat.zero_add] at before
  rw [offsetOf, own.wholeLines_eq, before, offsetInLines]

private theorem offsetInLines_eq_none_iff {column start number : Nat} {lines : List (List UInt8)} :
    offsetInLines column start number lines = none ↔ lines.length ≤ number := by
  induction lines generalizing start number with
  | nil => simp [offsetInLines]
  | cons l ls ih =>
    cases number with
    | zero => simp [offsetInLines]
    | succ number => rw [offsetInLines, ih, List.length_cons, Nat.add_le_add_iff_right]

private theorem offsetOf_eq_none_iff {number column : Nat} :
    offsetOf text number column = none ↔ number = 0 ∨ lineCount text < number := by
  cases number with
  | zero => simp [offsetOf]
  | succ number =>
    rw [offsetOf, offsetInLines_eq_none_iff, length_wholeLines_eq]
    omega

private theorem exists_first_line (filled : text ≠ []) : ∃ line rest, LineOf text [] line rest := by
  induction text with
  | nil => exact absurd rfl filled
  | cons b text ih =>
    by_cases same : b = lineFeed
    · exact ⟨[b], text, rfl, by simp [Closed], by simp, by simp, by simp [Closed, same]⟩
    · by_cases none : text = []
      · exact ⟨[b], [], by simp [none], by simp [Closed], by simp, by simp, by simp⟩
      · obtain ⟨line, rest, own⟩ := ih none
        obtain ⟨c, more, rfl⟩ := List.exists_cons_of_ne_nil own.filled
        refine ⟨b :: c :: more, rest, by simp [own.whole], own.closed, by simp, ?_, ?_⟩
        · simpa [Ne.symm same] using own.plain
        · intro behind
          have closed := own.ended behind
          rwa [Closed, List.getLast?_cons_cons]

private theorem count_of_closed (filled : line ≠ []) (plain : lineFeed ∉ line.dropLast)
    (closed : Closed line) : line.count lineFeed = 1 := by
  have last : line.getLast filled = lineFeed := closed _ (List.getLast?_eq_some_getLast filled)
  rw [← List.dropLast_append_getLast filled, last, List.count_append,
    List.count_eq_zero_of_not_mem plain]
  rfl

private theorem ne_nil_of_lt_lineCount {number : Nat} (inside : number < lineCount text) :
    text ≠ [] := by
  rintro rfl
  simp [lineCount, Closed] at inside

private theorem exists_lineOf {number : Nat} (inside : number < lineCount text) :
    ∃ front line rest, LineOf text front line rest ∧ front.count lineFeed = number := by
  induction number generalizing text with
  | zero =>
    obtain ⟨line, rest, own⟩ := exists_first_line (ne_nil_of_lt_lineCount inside)
    exact ⟨[], line, rest, own, rfl⟩
  | succ number ih =>
    obtain ⟨line, rest, own⟩ := exists_first_line (ne_nil_of_lt_lineCount inside)
    have later : number < lineCount rest := by
      have lengths := congrArg List.length own.wholeLines_eq
      rw [length_wholeLines_eq, wholeLines, List.nil_append, List.length_cons,
        length_wholeLines_eq] at lengths
      omega
    obtain ⟨front, next, behind, found, counted⟩ := ih later
    have closed := own.ended (ne_nil_of_lt_lineCount later)
    refine ⟨line ++ front, next, behind, ⟨?_, ?_, found.filled, found.plain, found.ended⟩, ?_⟩
    · rw [own.whole, found.whole]
      simp
    · exact (closed_append_iff closed).mpr found.closed
    · rw [List.count_append, count_of_closed own.filled own.plain closed, counted, Nat.add_comm]

private theorem offsetOf_lineAt {p : Nat} (inside : p < text.length) :
    offsetOf text (lineAt text p) (1 + bytesIntoLine text p) = some p := by
  obtain ⟨front, line, read, closed, free, column⟩ := exists_closed_append (text.take p)
  have whole : front ++ line ++ text.drop p = text := by rw [← read, List.take_append_drop]
  have measured : front.length + line.length = p := by
    rw [← List.length_append, ← read, List.length_take, Nat.min_eq_left inside.le]
  have more : text.drop p ≠ [] := by simpa using inside
  have place : offsetOf (front ++ line ++ text.drop p) (front.count lineFeed + 1)
      (1 + line.length) = some (front.length + (1 + line.length - 1)) :=
    offsetOf_append_of_le closed free (List.append_ne_nil_of_right_ne_nil line more) (by omega)
  rw [whole, Nat.add_sub_cancel_left, measured] at place
  rw [lineAt, bytesIntoLine, ← column, read, List.count_append,
    List.count_eq_zero_of_not_mem free, Nat.add_zero, place]

/-- Lines and columns against offsets. The line and the column of an offset lead back to it. A line
and a column lead nowhere exactly if the text has no such line; else they lead to an offset that
lies in the line or at its end, and a later column leads to no earlier offset. -/
theorem offsetOf_inverse (text : List UInt8) :
    (∀ p < text.length, offsetOf text (lineAt text p) (1 + bytesIntoLine text p) = some p) ∧
    (∀ number column,
      offsetOf text number column = none ↔ number = 0 ∨ lineCount text < number) ∧
    (∀ number, 0 < number → number ≤ lineCount text →
      ∃ front line rest, LineOf text front line rest ∧ front.count lineFeed + 1 = number ∧
        ∀ column, ∃ offset, offsetOf text number column = some offset ∧
          front.length ≤ offset ∧ offset ≤ front.length + line.length ∧ offset ≤ text.length) ∧
    ∀ number column later offset offset', column ≤ later →
      offsetOf text number column = some offset → offsetOf text number later = some offset' →
        offset ≤ offset' := by
  have lines : ∀ number, 0 < number → number ≤ lineCount text →
      ∃ front line rest, LineOf text front line rest ∧ front.count lineFeed + 1 = number := by
    intro number positive inside
    obtain ⟨front, line, rest, own, counted⟩ := exists_lineOf (Nat.sub_one_lt_of_le positive inside)
    exact ⟨front, line, rest, own, by omega⟩
  refine ⟨fun p => offsetOf_lineAt, fun number column => offsetOf_eq_none_iff, ?_, ?_⟩
  · intro number positive inside
    obtain ⟨front, line, rest, own, rfl⟩ := lines number positive inside
    refine ⟨front, line, rest, own, rfl, fun column => ⟨_, own.offsetOf_eq column, ?_, ?_, ?_⟩⟩
    · exact Nat.le_add_right _ _
    · exact Nat.add_le_add_left (Nat.min_le_right _ _) _
    · rw [own.whole, List.length_append, List.length_append]
      omega
  · intro number column later offset offset' order first second
    have there : ¬ (number = 0 ∨ lineCount text < number) := by
      intro absent
      rw [offsetOf_eq_none_iff.mpr absent] at first
      cases first
    obtain ⟨front, line, rest, own, rfl⟩ := lines number (by omega) (by omega)
    rw [own.offsetOf_eq, Option.some_inj] at first second
    omega

def fourLines : List UInt8 :=
  bytes "ab\nçd\n\nf"

theorem offsetOf_inverse_fourLines :
    offsetOf fourLines (lineAt fourLines 5) (1 + bytesIntoLine fourLines 5) = some 5 ∧
      lineAt fourLines 5 = 2 ∧ lineCount fourLines = 4 ∧ offsetOf fourLines 5 1 = none ∧
      (∃ front line rest, LineOf fourLines front line rest ∧ front.count lineFeed + 1 = 3) ∧
      ∃ offset offset', offsetOf fourLines 2 3 = some offset ∧
        offsetOf fourLines 2 9 = some offset' ∧ offset ≤ offset' := by
  have count : lineCount fourLines = 4 := by decide +kernel
  obtain ⟨back, absent, lines, order⟩ := offsetOf_inverse fourLines
  obtain ⟨front, line, rest, own, third, -⟩ := lines 3 (by omega) (by omega)
  have near : offsetOf fourLines 2 3 = some 5 := by decide +kernel
  have far : offsetOf fourLines 2 9 = some 7 := by decide +kernel
  exact ⟨back 5 (by decide +kernel), by decide +kernel, count, (absent 5 1).mpr (.inr (by omega)),
    ⟨front, line, rest, own, third⟩, 5, 7, near, far, order 2 3 9 5 7 (by omega) near far⟩

end RubyScaffold.Text
