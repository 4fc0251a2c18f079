import RubyScaffold.Proofs.Class.Soundness
import RubyScaffold.Proofs.Code.Comments
import RubyScaffold.Proofs.Layout.Rows
import RubyScaffold.Renderer

/-!
The reference layout of a class, written down row by row from its outline, and the proof that the
document of every accepted class is that layout.
-/

set_option autoImplicit false

namespace RubyScaffold.Code

open Layout

section Reference

variable {δ : Type}

def indented (level : Nat) (line : String) : String :=
  String.ofList (List.replicate (2 * level) ' ') ++ line

/-- Rows with an empty row after them, and nothing if there are none. -/
def groupRows (rows : List String) : List String :=
  if rows.isEmpty then [] else rows ++ [""]

def commentRows (c : ClassOutline String) (settings : Settings) : List String :=
  ((wantedDirectives c settings).mergeSort fun a b => decide (a.1 ≤ b.1)).map fun d =>
    "# " ++ d.1 ++ ": " ++ d.2

/-- The files to load by their path, then those that stand relative to this one. -/
def requireRows (c : ClassOutline δ) : List String :=
  (c.requires.map fun path => "require \"" ++ path ++ "\"") ++
    c.relativeRequires.map fun path => "require_relative \"" ++ path ++ "\""

def moduleRows (scopes : List String) : List String :=
  scopes.mapIdx fun i scope => indented i ("module " ++ scope)

def endRows (scopes : List String) : List String :=
  (List.range scopes.length).reverse.map fun i => indented i "end"

def headerLine (c : ClassOutline δ) : String :=
  match c.parent with
  | none => "class " ++ c.name
  | some parent => "class " ++ c.name ++ " < " ++ parent

def includeRows (level : Nat) (c : ClassOutline δ) : List String :=
  c.includes.map fun name => indented level ("include " ++ name)

/-- The lines given as they are; one of blanks alone is an empty row. -/
def topRows (level : Nat) (c : ClassOutline δ) : List String :=
  (c.topContents.flatMap Text.lines).map fun line =>
    if Unicode.isBlankText line then "" else indented level line

def variableNames (c : ClassOutline δ) : List String :=
  c.fields.map fun field => String.ofList (field.toList.drop 1)

def constructorRows (level : Nat) (c : ClassOutline δ) : List String :=
  if c.fields.isEmpty then []
  else
    [indented level ("def initialize(" ++
      String.intercalate ", " ((variableNames c).map (· ++ ":")) ++ ")")] ++
    (variableNames c).map (fun name => indented (level + 1) ("@" ++ name ++ " = " ++ name)) ++
    [indented level "end"]

def methodLine (name : String) (params : List String) : String :=
  if params.isEmpty then "def " ++ name
  else "def " ++ name ++ "(" ++ String.intercalate ", " params ++ ")"

/-- A method without a body; no parameters and an empty list of them are the same. -/
def methodRows (level : Nat) (method : String × Option (List String)) : List String :=
  [indented level (methodLine method.1 (method.2.getD [])), indented level "end"]

def readerRows (level : Nat) (c : ClassOutline δ) : List String :=
  if c.fields.isEmpty then []
  else
    [indented level "private", "", indented level ("attr_reader " ++
      String.intercalate ", " ((variableNames c).map (":" ++ ·)))]

/-- The sections of the class that are not empty, with an empty row between neighbours, and so
between consecutive methods. -/
def bodyRows (level : Nat) (c : ClassOutline δ) : List String :=
  [""].intercalate ([includeRows level c, topRows level c, constructorRows level c,
    [""].intercalate (c.methods.entries.map (methodRows level)),
    readerRows level c].filter fun rows => !rows.isEmpty)

def layoutRows (c : ClassOutline String) (settings : Settings) : List String :=
  groupRows (commentRows c settings) ++ groupRows (requireRows c) ++ moduleRows c.scopes ++
    [indented c.scopes.length (headerLine c)] ++ bodyRows (c.scopes.length + 1) c ++
    [indented c.scopes.length "end"] ++ endRows c.scopes

end Reference

/-- The reference layout of a class: its rows, each with a line feed. -/
def layout (c : ClassOutline String) (settings : Settings) : String :=
  ofRows (layoutRows c settings)

section Sections

variable {δ : Type}

private theorem row_of_word (level : Nat) {s t : String} (visible : Unicode.isBlankText s = false) :
    row level (s ++ t) = indented level (s ++ t) :=
  row_of_visible level visible

private theorem row_end (level : Nat) : row level "end" = indented level "end" := by
  have visible : Unicode.isBlankText "end" = false := by decide
  simpa using row_of_word level (s := "end") (t := "") visible

@[simp] theorem indented_zero (line : String) : indented 0 line = line := by
  simp [indented]

theorem rowsOf_closedGroup (level : Nat) (group : List Fragment) :
    rowsOf level (Preamble.closedGroup group) = groupRows (rowsOf level group) := by
  unfold Preamble.closedGroup groupRows
  cases group with
  | nil => simp [rowsOf]
  | cons f fs => simp [rowsOf, Fragment.rows, Fragment.rows_ne_nil]

theorem rowsOf_comments (comments : List MagicComment) :
    rowsOf 0 (comments.flatMap MagicComment.fragments) =
      comments.map fun c => "# " ++ c.key ++ ": " ++ c.value := by
  induction comments with
  | nil => simp [rowsOf]
  | cons c rest ih =>
    have line : row 0 ("# " ++ (c.key ++ (": " ++ c.value))) =
        "# " ++ (c.key ++ (": " ++ c.value)) := by
      rw [row_of_word 0 (by decide), indented_zero]
    simp [MagicComment.fragments, rowsOf, Fragment.rows, ih, line, String.append_assoc]

private theorem rowsOf_requires (paths : List String) (relative : Bool) :
    rowsOf 0 ((paths.map fun path => Require.mk path relative).flatMap Require.fragments) =
      paths.map fun path =>
        (if relative then "require_relative" else "require") ++ (" \"" ++ path ++ "\"") := by
  induction paths with
  | nil => simp [rowsOf]
  | cons path rest ih =>
    have line : row 0 ((if relative then "require_relative" else "require") ++
        (" \"" ++ (path ++ "\""))) =
        (if relative then "require_relative" else "require") ++ (" \"" ++ (path ++ "\"")) := by
      rw [row_of_word 0 (by cases relative <;> decide), indented_zero]
    simp [Require.fragments, rowsOf, Fragment.rows, ih, line, String.append_assoc]

private theorem rowsOf_preamble (c : ClassOutline String) (settings : Settings) :
    rowsOf 0 (Preamble.ofClass c settings).fragments =
      groupRows (commentRows c settings) ++ groupRows (requireRows c) := by
  have comments := rowsOf_comments (Preamble.commentsFor c settings)
  rw [Preamble.commentsFor_eq, List.map_map] at comments
  have requires : rowsOf 0 ((Preamble.ofClass c settings).requires.flatMap Require.fragments) =
      requireRows c := by
    have absolute : "require" ++ " \"" = "require \"" := by decide
    have relative : "require_relative" ++ " \"" = "require_relative \"" := by decide
    simp only [Preamble.ofClass, List.flatMap_append, rowsOf_append, rowsOf_requires, requireRows,
      Bool.false_eq_true, if_false, if_true, ← String.append_assoc, absolute, relative]
  rw [Preamble.fragments, rowsOf_append, rowsOf_closedGroup, rowsOf_closedGroup, requires]
  simp only [Preamble.ofClass, Preamble.commentsFor_eq, comments, commentRows, Function.comp_def]

private theorem rowsOf_includes (level : Nat) (c : ClassOutline δ) :
    rowsOf level (includeSection c) = includeRows level c := by
  unfold includeSection includeRows
  induction c.includes with
  | nil => simp [rowsOf]
  | cons name rest ih =>
    have line := row_of_word level (s := "include ") (t := name) (by decide)
    rw [List.flatMap_cons, rowsOf_append, ih]
    simp [Include.fragments, rowsOf, Fragment.rows, line]

private theorem rowsOf_top (level : Nat) (c : ClassOutline δ) :
    rowsOf level (topSection c) = topRows level c := by
  unfold topSection topRows
  rw [rowsOf_lines]
  rfl

private theorem row_methodLine (level : Nat) (name : String) (params : List String) :
    row level (methodLine name params) = indented level (methodLine name params) := by
  have visible : Unicode.isBlankText "def " = false := by decide
  unfold methodLine
  split <;> simp only [String.append_assoc, row_of_word level visible]

private theorem rowsOf_method (level : Nat) (m : Method) :
    rowsOf level m.fragments =
      [indented level (methodLine m.name m.params)] ++ m.body.map (row (level + 1)) ++
        [indented level "end"] := by
  have line : m.signature = methodLine m.name m.params := rfl
  simp [Method.fragments, rowsOf, Fragment.rows, rowsOf_lines, row_end, line, row_methodLine]

theorem fieldNames_eq (spec : ClassSpec) : spec.fieldNames = variableNames spec.toClassOutline := by
  refine List.map_congr_left fun field mem => ?_
  obtain ⟨name, rfl, -⟩ := spec.validField field mem
  have bare : ClassOutline.bareField? ("@" ++ name) = some name :=
    ClassOutline.bareField?_eq_some_iff.mpr rfl
  simp [bare]

theorem fields_eq (spec : ClassSpec) :
    spec.fields = (variableNames spec.toClassOutline).map ("@" ++ ·) := by
  rw [variableNames, List.map_map]
  conv_lhs => rw [← List.map_id spec.fields]
  refine List.map_congr_left fun field mem => ?_
  obtain ⟨name, rfl, -⟩ := spec.validField field mem
  simp

theorem sigiled_fieldNames (spec : ClassSpec) : spec.fieldNames.map ("@" ++ ·) = spec.fields := by
  rw [fieldNames_eq, ← fields_eq]

private theorem rowsOf_constructor (level : Nat) (spec : ClassSpec) :
    rowsOf level (constructorSection spec.toClassOutline) =
      constructorRows level spec.toClassOutline := by
  unfold constructorSection constructorRows
  cases fields : spec.fields with
  | nil => simp [rowsOf]
  | cons field rest =>
    have some : variableNames spec.toClassOutline ≠ [] := by simp [variableNames, fields]
    have assignment : ∀ name, row (level + 1) ("@" ++ name ++ " = " ++ name) =
        indented (level + 1) ("@" ++ name ++ " = " ++ name) := fun name => by
      have visible : Unicode.isBlankText "@" = false := by decide
      simp only [String.append_assoc, row_of_word _ visible]
    simp only [List.isEmpty_cons, Bool.false_eq_true, if_false]
    rw [fieldNames_eq, rowsOf_method]
    simp [constructor, constructorName, methodLine, some, assignment, Function.comp_def]

private theorem rowsOf_methods (level : Nat) (c : ClassOutline δ) :
    rowsOf level (methodSection c) =
      [""].intercalate (c.methods.entries.map (methodRows level)) := by
  have whole : ∀ rows ∈ c.methods.entries.map (methodRows level), (!rows.isEmpty) = true := by
    intro rows mem
    obtain ⟨m, -, rfl⟩ := List.mem_map.mp mem
    rfl
  have each : rowsOf level ∘ (fun m : String × Option (List String) =>
      Method.fragments { name := m.1, params := m.2.getD [] }) = methodRows level := by
    funext m
    simp [rowsOf_method, methodRows]
  rw [methodSection, rowsOf_separated, List.map_map, each, List.filter_eq_self.mpr whole]

private theorem rowsOf_readers (level : Nat) (spec : ClassSpec) :
    rowsOf level (readerSection spec.toClassOutline) = readerRows level spec.toClassOutline := by
  unfold readerSection readerRows
  cases fields : spec.fields with
  | nil => simp [rowsOf]
  | cons field rest =>
    have word : row level "private" = indented level "private" :=
      row_of_word level (s := "private") (t := "") (by decide)
    have readers : ∀ t, row level ("attr_reader " ++ t) = indented level ("attr_reader " ++ t) :=
      fun t => row_of_word level (by decide)
    simp [AttrReader.fragments, rowsOf, Fragment.rows, word, readers, fieldNames_eq]

private theorem row_classHeader (level : Nat) (c : ClassOutline δ) :
    row level (classHeader c) = indented level (headerLine c) := by
  have visible : Unicode.isBlankText "class " = false := by decide
  unfold classHeader headerLine
  cases c.parent <;> simp only [String.append_assoc, row_of_word level visible]

private theorem rowsOf_class (level : Nat) (spec : ClassSpec) :
    rowsOf level (classFragments spec.toClassOutline) =
      [indented level (headerLine spec.toClassOutline)] ++
        bodyRows (level + 1) spec.toClassOutline ++ [indented level "end"] := by
  simp only [classFragments, rowsOf, Fragment.rows, rowsOf_separated, List.map_cons, List.map_nil,
    rowsOf_includes, rowsOf_top, rowsOf_constructor, rowsOf_methods, rowsOf_readers,
    row_classHeader, bodyRows]
  simp [row_end]

/-- The rows of a document are those of the reference layout. -/
theorem rowsOf_fragments (spec : ClassSpec) (settings : Settings) :
    rowsOf 0 (spec.fragments settings) = layoutRows spec.toClassOutline settings := by
  have opening : ∀ i (scope : String),
      row i ("module " ++ scope) = indented i ("module " ++ scope) :=
    fun i scope => row_of_word i (by decide)
  rw [ClassSpec.fragments, rowsOf_append, rowsOf_preamble, rowsOf_inScopes, rowsOf_class]
  simp only [Nat.zero_add, opening, row_end, layoutRows, moduleRows, endRows, List.append_assoc]

theorem document_eq_layout (spec : ClassSpec) (settings : Settings) :
    spec.document settings = layout spec.toClassOutline settings := by
  rw [ClassSpec.document, print_eq, rowsOf_fragments, layout]

end Sections

end RubyScaffold.Code

namespace RubyScaffold

/-- What the renderer hands to its validator, and what leaves it if the validator agrees, is the
reference layout of the class. -/
theorem Renderer.render_reference_layout {m : Type → Type} [Monad m] (r : Renderer m)
    (spec : ClassSpec) :
    r.render spec =
      r.validator (Code.layout spec.toClassOutline r.settings) >>= fun report =>
        if report.ok then pure (.ok (Code.layout spec.toClassOutline r.settings))
        else
          pure (.error
            (.rejected (Code.layout spec.toClassOutline r.settings) report.diagnostic)) := by
  rw [← Code.document_eq_layout]
  rfl

end RubyScaffold
