import RubyScaffold.Proofs.Code.Marked
import RubyScaffold.Proofs.Code.Sections

/-!
The contents that a class is given as they are. Their lines stand in the document one below the
other, and how the lines were put together into texts does not show.
-/

set_option autoImplicit false

namespace RubyScaffold

namespace Text

private theorem lines_intercalate {texts : List String} (some : texts ≠ []) :
    lines (String.intercalate "\n" texts) = texts.flatMap lines := by
  induction texts with
  | nil => exact absurd rfl some
  | cons s rest ih =>
    cases rest with
    | nil => simp
    | cons t rest =>
      rw [String.intercalate_cons_cons, lines_append, ih (by simp)]
      exact List.flatMap_cons.symm

private theorem flatMap_lines_flatMap_lines (texts : List String) :
    (texts.flatMap lines).flatMap lines = texts.flatMap lines := by
  refine flatMap_lines_eq_self fun line mem => ?_
  obtain ⟨s, -, own⟩ := List.mem_flatMap.mp mem
  exact lineFeed_not_mem_line own

private theorem lines_ne_nil (s : String) : lines s ≠ [] := by
  simp [lines, pieces_eq_splitOn, List.splitOn_ne_nil]

end Text

def ClassSpec.withTop (spec : ClassSpec) (texts : List String) : ClassSpec where
  toClassOutline := { spec.toClassOutline with topContents := texts }
  sound := spec.sound

namespace Code

open Layout

variable {δ : Type}

/-- A line without the spaces of a level, if it starts with them; an empty line stays as it is. -/
def unindented? (level : Nat) (line : String) : Option String :=
  if line = "" then some ""
  else ((List.replicate (2 * level) ' ').isPrefixOf? line.toList).map String.ofList

/-- A line, or an empty one in the place of a line of blanks. -/
def cleared (line : String) : String :=
  if Unicode.isBlankText line then "" else line

def rowsAboveTop (c : ClassOutline String) (settings : Settings) : List String :=
  groupRows (commentRows c settings) ++ groupRows (requireRows c) ++ moduleRows c.scopes ++
    [indented c.scopes.length (headerLine c)] ++ groupRows (includeRows (c.scopes.length + 1) c)

def rowsBelowTop (c : ClassOutline δ) : List String :=
  ledRows (constructorRows (c.scopes.length + 1) c) ++
    ledRows ([""].intercalate (c.methods.entries.map (methodRows (c.scopes.length + 1)))) ++
    ledRows (readerRows (c.scopes.length + 1) c) ++ [indented c.scopes.length "end"] ++
    endRows c.scopes

private theorem unindented?_topRow (level : Nat) (line : String) :
    unindented? level (if Unicode.isBlankText line then "" else indented level line) =
      some (cleared line) := by
  unfold cleared
  split
  · rfl
  · next visible =>
    have full : indented level line ≠ "" := by
      intro none
      obtain ⟨-, rfl⟩ := String.append_eq_empty_iff.mp none
      exact visible (by decide)
    rw [unindented?, if_neg full, indented, String.toList_append, String.toList_ofList]
    simp

private theorem topRows_ne_nil {c : ClassOutline δ} (some : c.topContents ≠ []) (level : Nat) :
    topRows level c ≠ [] := by
  obtain ⟨s, rest, given⟩ := List.exists_cons_of_ne_nil some
  simp [topRows, given, Text.lines_ne_nil]

/-- The contents given as they are stand between their neighbours, whichever of these there are. -/
private theorem layoutRows_of_top {c : ClassOutline String} (settings : Settings)
    (some : c.topContents ≠ []) :
    layoutRows c settings =
      rowsAboveTop c settings ++ topRows (c.scopes.length + 1) c ++ rowsBelowTop c := by
  have body := intercalate_sections_around [includeRows (c.scopes.length + 1) c]
    (topRows_ne_nil some (c.scopes.length + 1))
    [constructorRows (c.scopes.length + 1) c,
      [""].intercalate (c.methods.entries.map (methodRows (c.scopes.length + 1))),
      readerRows (c.scopes.length + 1) c]
  rw [layoutRows, bodyRows]
  refine (congrArg (fun rows => _ ++ rows ++ _ ++ _) body).trans ?_
  simp [rowsAboveTop, rowsBelowTop]

private theorem lineFeed_not_mem_topRow {c : ClassOutline δ} {level : Nat} :
    ∀ r ∈ topRows level c, '\n' ∉ r.toList := by
  intro r mem
  obtain ⟨line, given, rfl⟩ := List.mem_map.mp mem
  obtain ⟨s, -, own⟩ := List.mem_flatMap.mp given
  split
  · simp
  · simp [indented, Text.lineFeed_not_mem_line own]

private theorem lines_document_of_top (spec : ClassSpec) (settings : Settings)
    (some : spec.topContents ≠ []) :
    Text.lines (spec.document settings) =
      (rowsAboveTop spec.toClassOutline settings).flatMap Text.lines ++
        topRows (spec.scopes.length + 1) spec.toClassOutline ++
        (rowsBelowTop spec.toClassOutline).flatMap Text.lines ++ [""] := by
  rw [document_eq_layout, layout, Text.lines_ofRows, layoutRows_of_top settings some,
    List.flatMap_append, List.flatMap_append, Text.flatMap_lines_eq_self lineFeed_not_mem_topRow]

private theorem document_withTop {spec : ClassSpec} (settings : Settings) {texts : List String}
    (same : texts.flatMap Text.lines = spec.givenLines) :
    (spec.withTop texts).document settings = spec.document settings := by
  have given : topSection (spec.withTop texts).toClassOutline = topSection spec.toClassOutline :=
    congrArg (List.map Fragment.line) same
  have body : classFragments (spec.withTop texts).toClassOutline =
      classFragments spec.toClassOutline := by
    rw [classFragments, given]
    rfl
  rw [ClassSpec.document, ClassSpec.fragments, body]
  rfl

end Code

open Code

/-- Contents given as they are stay as they are. Only their lines count: one text that joins them
with line feeds, or a text for every line of theirs, gives the same document. In the document the
lines stand between neighbours that do not depend on them; without the spaces of their level they
are the given lines in order, with an empty one in the place of each line of blanks. -/
theorem ClassSpec.topContents_verbatim (spec : ClassSpec) (settings : Settings)
    (some : spec.topContents ≠ []) :
    (spec.withTop [String.intercalate "\n" spec.topContents]).document settings =
      spec.document settings ∧
    (spec.withTop spec.givenLines).document settings = spec.document settings ∧
    ∃ rows : List String,
      Text.lines (spec.document settings) =
        (rowsAboveTop spec.toClassOutline settings).flatMap Text.lines ++ rows ++
          (rowsBelowTop spec.toClassOutline).flatMap Text.lines ++ [""] ∧
      rows.map (unindented? (spec.scopes.length + 1)) =
        spec.givenLines.map fun line => .some (cleared line) := by
  refine ⟨document_withTop settings ?_, document_withTop settings ?_, _,
    lines_document_of_top spec settings some, ?_⟩
  · rw [List.flatMap_singleton, Text.lines_intercalate some]
    rfl
  · exact Text.flatMap_lines_flatMap_lines spec.topContents
  · rw [topRows, List.map_map]
    exact List.map_congr_left fun line _ => unindented?_topRow _ line

/-- A class whose given contents hold an empty text, line feeds at both ends, a carriage return and
lines of blanks. -/
def ledger : ClassSpec where
  name := "Ledger"
  scopes := ["Books"]
  includes := ["Enumerable"]
  fields := ["@rows"]
  topContents := ["\nOPEN = 1\r\n\t", "", "\u00a0\n  CLOSED = 2\n"]
  sound := by decide +kernel

theorem ClassSpec.topContents_verbatim_ledger :
    ledger.topContents ≠ [] ∧
    (ledger.withTop ["\nOPEN = 1\r\n\t\n\n\u00a0\n  CLOSED = 2\n"]).document {} =
      ledger.document {} ∧
    (ledger.withTop ["", "OPEN = 1\r", "\t", "", "\u00a0", "  CLOSED = 2", ""]).document {} =
      ledger.document {} ∧
    ∃ rows : List String,
      Text.lines (ledger.document {}) =
        ["# frozen_string_literal: true", "", "module Books", "  class Ledger",
          "    include Enumerable", ""] ++ rows ++
        ["", "    def initialize(rows:)", "      @rows = rows", "    end", "", "    private", "",
          "    attr_reader :rows", "  end", "end"] ++ [""] ∧
      rows.map (unindented? 2) =
        ["", "OPEN = 1\r", "", "", "", "  CLOSED = 2", ""].map .some := by
  have some : ledger.topContents ≠ [] := List.cons_ne_nil _ _
  have joined : String.intercalate "\n" ledger.topContents =
      "\nOPEN = 1\r\n\t\n\n\u00a0\n  CLOSED = 2\n" := by decide +kernel
  have lines : ledger.givenLines = ["", "OPEN = 1\r", "\t", "", "\u00a0", "  CLOSED = 2", ""] := by
    decide +kernel
  have above : (rowsAboveTop ledger.toClassOutline {}).flatMap Text.lines =
      ["# frozen_string_literal: true", "", "module Books", "  class Ledger",
        "    include Enumerable", ""] := by decide +kernel
  have below : (rowsBelowTop ledger.toClassOutline).flatMap Text.lines =
      ["", "    def initialize(rows:)", "      @rows = rows", "    end", "", "    private", "",
        "    attr_reader :rows", "  end", "end"] := by decide +kernel
  obtain ⟨one, each, rows, whole, own⟩ := ledger.topContents_verbatim {} some
  rw [joined] at one
  rw [lines] at each own
  rw [above, below] at whole
  exact ⟨some, one, each, rows, whole, own.trans (by decide +kernel)⟩

end RubyScaffold
