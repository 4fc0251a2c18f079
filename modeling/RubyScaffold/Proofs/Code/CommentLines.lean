import RubyScaffold.Proofs.Code.Comments
import RubyScaffold.Proofs.Code.Reference
import RubyScaffold.Proofs.Text.Joins

/-!
The comments of a class as lines. A directive is written into its comment as it is, so it is one
line as long as it holds no line feed, and what follows a line feed in it is a line of its own.
-/

set_option autoImplicit false

namespace RubyScaffold

open Layout

namespace Text

private theorem length_lines (s : String) : (lines s).length = s.toList.count '\n' + 1 := by
  rw [lines, pieces_eq_splitOn, List.length_map]
  induction s.toList with
  | nil => rfl
  | cons c rest ih =>
    rw [List.splitOn_cons_eq_if_modifyHead, List.count_cons]
    split <;> simp [ih]

private theorem length_flatMap_lines_eq_iff (rows : List String) :
    (rows.flatMap lines).length = rows.length ↔ ∀ r ∈ rows, '\n' ∉ r.toList := by
  have total : (rows.flatMap lines).length =
      rows.length + (rows.map fun r => r.toList.count '\n').sum := by
    induction rows with
    | nil => rfl
    | cons r rows ih =>
      rw [List.flatMap_cons, List.length_append, ih, length_lines]
      simp only [List.length_cons, List.map_cons, List.sum_cons]
      omega
  rw [total, Nat.add_eq_left, List.sum_eq_zero_iff_forall_eq_nat, List.forall_mem_map]
  simp only [List.count_eq_zero]

end Text

namespace Code

/-- The line that a comment is meant to be. -/
def MagicComment.line (c : MagicComment) : String :=
  "# " ++ c.key ++ ": " ++ c.value

private theorem MagicComment.newline_mem_line (c : MagicComment) :
    '\n' ∈ c.line.toList ↔ '\n' ∈ c.key.toList ∨ '\n' ∈ c.value.toList := by
  simp [line]

private theorem ofRows_groupRows (rows : List String) :
    ofRows (groupRows rows) = ofRows rows ++ if rows.isEmpty then "" else "\n" := by
  cases rows with
  | nil => rfl
  | cons r rows => simp [groupRows, String.append_assoc]

namespace Preamble

def commentText (p : Preamble) : String :=
  print (p.comments.flatMap MagicComment.fragments)

private theorem commentText_eq (p : Preamble) :
    p.commentText = ofRows (p.comments.map MagicComment.line) := by
  rw [commentText, print_eq, rowsOf_comments]
  rfl

private theorem plain_comments_iff (c : ClassOutline String) (settings : Settings) :
    (∀ r ∈ (ofClass c settings).comments.map MagicComment.line, '\n' ∉ r.toList) ↔
      ∀ d ∈ c.directives.entries,
        (settings.frozenStringLiteral = true → d.1 ≠ MagicComment.frozenKey) →
        '\n' ∉ d.1.toList ∧ '\n' ∉ d.2.toList := by
  have members := (commentsFor_spec c settings).2
  simp only [List.forall_mem_map, MagicComment.newline_mem_line, not_or]
  constructor
  · intro plain d mem shown
    exact plain ⟨d.1, d.2⟩ ((members _).mpr (.inr ⟨mem, shown⟩))
  · intro plain comment mem
    rcases (members comment).mp mem with ⟨-, rfl⟩ | ⟨mem, shown⟩
    · decide
    · exact plain (comment.key, comment.value) mem shown

end Preamble

end Code

open Code

/-- The comments of a class open its file, line after line what the directives hold. They are one
line each, behind a `# `, exactly if no directive that is shown holds a line feed. -/
theorem ClassSpec.comment_lines (spec : ClassSpec) (settings : Settings) :
    let preamble := Preamble.ofClass spec.toClassOutline settings
    let written := (Text.lines preamble.commentText).dropLast
    Text.lines preamble.commentText =
      preamble.comments.flatMap (fun c => Text.lines ("# " ++ c.key ++ ": " ++ c.value)) ++ [""] ∧
    ((written.length = preamble.comments.length ∧
        ∀ line ∈ written, "# ".toList <+: line.toList) ↔
      ∀ d ∈ spec.directives.entries,
        (settings.frozenStringLiteral = true → d.1 ≠ MagicComment.frozenKey) →
        '\n' ∉ d.1.toList ∧ '\n' ∉ d.2.toList) ∧
    ∃ rest, spec.document settings = preamble.commentText ++ rest := by
  intro preamble written
  have lines : Text.lines preamble.commentText =
      (preamble.comments.map MagicComment.line).flatMap Text.lines ++ [""] := by
    rw [Preamble.commentText_eq, Text.lines_ofRows]
  have each : written = (preamble.comments.map MagicComment.line).flatMap Text.lines := by
    simp [written, lines]
  refine ⟨by rw [lines, List.flatMap_map]; rfl, ?_, ?_⟩
  · rw [← Preamble.plain_comments_iff, each, ← List.length_map MagicComment.line,
      Text.length_flatMap_lines_eq_iff]
    refine ⟨And.left, fun plain => ⟨plain, ?_⟩⟩
    rw [Text.flatMap_lines_eq_self plain, List.forall_mem_map]
    intro comment _
    exact ⟨(comment.key ++ ": " ++ comment.value).toList, by simp [MagicComment.line]⟩
  · rw [ClassSpec.document, print_eq, ClassSpec.fragments, rowsOf_append, ofRows_append,
      Preamble.fragments, rowsOf_append, ofRows_append, rowsOf_closedGroup, ofRows_groupRows,
      ← print_eq, ← Preamble.commentText]
    simp only [String.append_assoc]
    exact ⟨_, rfl⟩

def notedGreeter : ClassSpec :=
  ⟨{ name := "Greeter", directives := .ofList [("note", "a\nputs 1")] }, rfl⟩

/-- The one comment of the class is followed by a line of code. -/
theorem line_feed_leaves_comment :
    let preamble := Preamble.ofClass notedGreeter.toClassOutline ⟨false⟩
    preamble.comments = [⟨"note", "a\nputs 1"⟩] ∧
      Text.lines preamble.commentText = ["# note: a", "puts 1", ""] ∧
      ¬ "# ".toList <+: "puts 1".toList := by
  decide +kernel

end RubyScaffold
