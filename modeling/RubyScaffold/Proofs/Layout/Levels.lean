import RubyScaffold.Proofs.Text.Joins

/-!
Code laid out deeper. What fragments add to a page depends on them and on the level of the page
only, and the level is the same behind them. If every line of theirs stays on its own row, going some
levels deeper puts spaces in front of every row that shows something and changes nothing else.
-/

set_option autoImplicit false

namespace RubyScaffold.Layout

/-- The text of fragments on a page that is empty but for its level. -/
def printAt (level : Nat) (fragments : List Fragment) : String :=
  (Page.addAll { level := level } fragments).text

/-- A line with the spaces of some levels in front of it, unless it is empty. -/
def pushed (levels : Nat) (line : String) : String :=
  if line = "" then "" else indentation levels ++ line

def shifted (levels : Nat) (text : String) : String :=
  String.intercalate "\n" ((Text.lines text).map (pushed levels))

mutual

/-- The lines that a fragment brings, from its first to its last, each with the number of blocks
around it. -/
def Fragment.ownLines (depth : Nat) : Fragment → List (Nat × String)
  | .line text => [(depth, text)]
  | .blank => [(depth, "")]
  | .comment text => [(depth, "# " ++ text)]
  | .block header body close =>
    (depth, header) :: (ownLinesOf (depth + 1) body ++ (close.map (depth, ·)).toList)

def ownLinesOf (depth : Nat) : List Fragment → List (Nat × String)
  | [] => []
  | f :: fs => f.ownLines depth ++ ownLinesOf depth fs

end

def OneLine (fragments : List Fragment) : Prop :=
  ∀ own ∈ ownLinesOf 0 fragments, '\n' ∉ own.2.toList

instance (fragments : List Fragment) : Decidable (OneLine fragments) :=
  inferInstanceAs (Decidable (∀ _ ∈ _, _))

theorem printAt_eq (level : Nat) (fs : List Fragment) :
    printAt level fs = ofRows (rowsOf level fs) := by
  simp [printAt, Page.addAll_eq]

private theorem printAt_append (level : Nat) (fs gs : List Fragment) :
    printAt level (fs ++ gs) = printAt level fs ++ printAt level gs := by
  simp only [printAt_eq, rowsOf_append, ofRows_append]

private theorem Page.addAll_eq_printAt (p : Page) (fs : List Fragment) :
    p.addAll fs = { p with text := p.text ++ printAt p.level fs } := by
  rw [Page.addAll_eq, printAt_eq]

-- The depth is an argument of both statements: the body of a block stands one deeper than the block.
mutual

/-- The rows of a fragment are its own lines, each as deep below the level as it stands in the
fragment. -/
theorem Fragment.rows_eq_map (level : Nat) : ∀ (depth : Nat) (f : Fragment),
    f.rows (level + depth) = (f.ownLines depth).map fun own => row (level + own.1) own.2
  | _, .line _ | _, .comment _ => rfl
  | depth, .blank => by
    have empty : Unicode.isBlankText "" = true := by decide
    simp [Fragment.rows, Fragment.ownLines, row, empty]
  | depth, .block header body close => by
    have inside := rowsOf_eq_map level (depth + 1) body
    rw [← Nat.add_assoc] at inside
    rw [Fragment.rows, Fragment.ownLines, inside, List.map_cons, List.map_append]
    cases close <;> rfl

private theorem rowsOf_eq_map (level : Nat) : ∀ (depth : Nat) (fs : List Fragment),
    rowsOf (level + depth) fs = (ownLinesOf depth fs).map fun own => row (level + own.1) own.2
  | _, [] => rfl
  | depth, f :: fs => by
    rw [rowsOf, ownLinesOf, List.map_append, f.rows_eq_map level depth, rowsOf_eq_map level depth fs]

end

private theorem indentation_add (level depth : Nat) :
    indentation (level + depth) = indentation level ++ indentation depth := by
  rw [indentation, indentation, indentation, Nat.mul_add, List.replicate_add, String.ofList_append]

private theorem row_add (level depth : Nat) (line : String) :
    row (level + depth) line = pushed level (row depth line) := by
  unfold row pushed
  split
  · rfl
  · next visible =>
    -- a visible line is not empty on its row either, so nothing but the spaces comes in front
    have some : indentation depth ++ line ≠ "" := by
      intro none
      obtain ⟨-, rfl⟩ := String.append_eq_empty_iff.mp none
      exact visible (by decide)
    rw [if_neg some, indentation_add, String.append_assoc]

private theorem lines_printAt {fs : List Fragment} (oneLine : OneLine fs) (level : Nat) :
    Text.lines (printAt level fs) =
      (ownLinesOf 0 fs).map (fun own => row (level + own.1) own.2) ++ [""] := by
  have rows : rowsOf level fs = (ownLinesOf 0 fs).map fun own => row (level + own.1) own.2 :=
    rowsOf_eq_map level 0 fs
  have plain : ∀ r ∈ (ownLinesOf 0 fs).map (fun own => row (level + own.1) own.2),
      '\n' ∉ r.toList := by
    intro r mem
    obtain ⟨own, memOwn, rfl⟩ := List.mem_map.mp mem
    exact lineFeed_not_mem_row (oneLine own memOwn)
  rw [printAt_eq, Text.lines_ofRows, rows, Text.flatMap_lines_eq_self plain]

private theorem printAt_eq_shifted {fs : List Fragment} (oneLine : OneLine fs) (level : Nat) :
    printAt level fs = shifted level (printAt 0 fs) := by
  have deeper : ∀ own ∈ ownLinesOf 0 fs,
      row (level + own.1) own.2 = pushed level (row (0 + own.1) own.2) := by
    intro own _
    rw [Nat.zero_add, row_add]
  calc printAt level fs
      = ofRows ((ownLinesOf 0 fs).map fun own => row (level + own.1) own.2) := by
        rw [printAt_eq, ← rowsOf_eq_map level 0 fs, Nat.add_zero]
    _ = ofRows ((ownLinesOf 0 fs).map fun own => pushed level (row (0 + own.1) own.2)) := by
        rw [List.map_congr_left deeper]
    _ = shifted level (printAt 0 fs) := by
        rw [shifted, lines_printAt oneLine, List.map_append, List.map_map, ← Text.intercalate_rows]
        rfl

/-- Laying fragments out keeps the level of a page and all that is written on it, and what it adds
depends on the fragments and the level only; several runs of fragments add their texts one after the
other. If every text in them stays on its line, the text at a level is the text at the margin with
the spaces of the level in front of every line that is not empty, and each line of it is empty or an
own line of a fragment behind the spaces of the level and of the blocks around it. -/
theorem Page.addAll_context_free (p : Page) (fs gs : List Fragment) :
    p.addAll fs = { p with text := p.text ++ printAt p.level fs } ∧
    p.addAll (fs ++ gs) = { p with text := p.text ++ (printAt p.level fs ++ printAt p.level gs) } ∧
    (OneLine fs → ∀ level,
      printAt level fs = shifted level (printAt 0 fs) ∧
      ∀ line ∈ Text.lines (printAt level fs), line = "" ∨
        ∃ own ∈ ownLinesOf 0 fs, line = indentation (level + own.1) ++ own.2) := by
  refine ⟨p.addAll_eq_printAt fs, ?_, fun oneLine level => ⟨printAt_eq_shifted oneLine level, ?_⟩⟩
  · rw [p.addAll_eq_printAt, printAt_append]
  · intro line mem
    rw [lines_printAt oneLine, List.mem_append, List.mem_singleton] at mem
    rcases mem with mem | rfl
    · obtain ⟨own, memOwn, rfl⟩ := List.mem_map.mp mem
      unfold row
      split
      · exact .inl rfl
      · exact .inr ⟨own, memOwn, rfl⟩
    · exact .inl rfl

def shelf : List Fragment :=
  [.comment "shelf", .block "if tall" [.line "  ", .block "begin" [.comment "inner", .blank] none,
    .line " lean "] (some "end"), .line ""]

theorem Page.addAll_context_free_shelf :
    OneLine shelf ∧
      printAt 2 shelf = shifted 2 (printAt 0 shelf) ∧
      "        # inner" ∈ Text.lines (printAt 2 shelf) ∧
      ∃ own ∈ ownLinesOf 0 shelf, "        # inner" = indentation (2 + own.1) ++ own.2 := by
  have oneLine : OneLine shelf := by decide
  have inside : "        # inner" ∈ Text.lines (printAt 2 shelf) := by decide +kernel
  obtain ⟨-, -, deeper⟩ := Page.addAll_context_free {} shelf []
  obtain ⟨same, lines⟩ := deeper oneLine 2
  exact ⟨oneLine, same, inside, (lines _ inside).resolve_left (by decide)⟩

end RubyScaffold.Layout
