import RubyScaffold.Proofs.Code.Determined
import RubyScaffold.Proofs.Layout.Spacing

/-!
The shape of a document whose texts keep their lines: where it has empty lines, how it ends, how
far each line is indented, and when no line ends in white space.
-/

set_option autoImplicit false

namespace RubyScaffold

def Text.endsInBlank (s : String) : Bool :=
  s.toList.getLast?.any Unicode.isBlank

/-- An outline in which no text that can stand at the end of a line is empty or ends in white
space. -/
structure ClassOutline.Trimmed (c : ClassOutline String) : Prop where
  names : ∀ s ∈ c.name :: c.parent.toList ++ c.scopes ++ c.includes ++ c.methods.keys ++
    c.directives.entries.map Prod.snd, s ≠ "" ∧ Text.endsInBlank s = false
  given : ∀ line ∈ c.givenLines, Text.endsInBlank line = false

end RubyScaffold

namespace RubyScaffold.Text

private theorem endsInBlank_append {s t : String} (some : t ≠ "") :
    endsInBlank (s ++ t) = endsInBlank t := by
  have full : t.toList ≠ [] := by simpa using some
  rw [endsInBlank, String.toList_append, List.getLast?_append_of_ne_nil _ full, endsInBlank]

private theorem endsInBlank_commaJoin {xs : List String}
    (each : ∀ x ∈ xs, x ≠ "" ∧ endsInBlank x = false) :
    endsInBlank (String.intercalate ", " xs) = false := by
  induction xs with
  | nil => decide
  | cons x xs ih =>
    have rest := ih fun y mem => each y (List.mem_cons_of_mem _ mem)
    cases xs with
    | nil => simpa using (each x List.mem_cons_self).2
    | cons y ys =>
      have full : String.intercalate ", " (y :: ys) ≠ "" := by
        have next := (each y (by simp)).1
        cases ys <;> simp [next]
      rw [String.intercalate_cons_cons, endsInBlank_append full, rest]

private theorem endsInBlank_of_usable {name : String} (usable : Naming.nameFault? name = none) :
    endsInBlank name = false := by
  unfold endsInBlank
  cases last : name.toList.getLast? with
  | none => rfl
  | some c =>
    have follows := Naming.continuesName_of_usable usable c (List.mem_of_getLast? last)
    cases blank : Unicode.isBlank c with
    | false => simp [blank]
    | true => simp [Naming.continuesName_of_isBlank blank] at follows

private theorem ne_empty_of_usable {name : String} (usable : Naming.nameFault? name = none) :
    name ≠ "" := by
  rintro rfl
  obtain ⟨c, rest, chars, -⟩ := Naming.exists_head_of_usable usable
  simp at chars

end RubyScaffold.Text

namespace RubyScaffold.Code

open Layout Text

section Lines

def openingWords : List String := ["module ", "class ", "def "]

def innerWords : List String :=
  ["# ", "require \"", "require_relative \"", "include ", "@", "private", "attr_reader "]

/-- Whether a line reads as its place asks for. It opens a module, a class or a method, it is the
word that closes one, or it stands inside and is empty, given, or starts with a word that does
neither. -/
def Plain (given : List String) : Line → Prop
  | .opening text => ∃ word ∈ openingWords, ∃ rest, text = word ++ rest
  | .closing text => text = "end"
  | .inner text => text = "" ∨ text ∈ given ∨ ∃ word ∈ innerWords, ∃ rest, text = word ++ rest

variable {spec : ClassSpec} {settings : Settings} {line : Line}

private theorem plain_of_classLine (own : ClassLine spec settings line) :
    Plain spec.givenLines line := by
  have inner : ∀ word rest : String, word ∈ innerWords →
      Plain spec.givenLines (.inner (word ++ rest)) :=
    fun word rest known => .inr (.inr ⟨word, known, rest, rfl⟩)
  have opening : ∀ word rest : String, word ∈ openingWords →
      Plain spec.givenLines (.opening (word ++ rest)) :=
    fun word rest known => ⟨word, known, rest, rfl⟩
  cases own with
  | frozen => exact inner "# " "frozen_string_literal: true" (by decide)
  | directive _ => exact inner _ _ (by decide)
  | requires _ | requiresRelative _ =>
    rw [String.append_assoc]
    exact inner _ _ (by decide)
  | scope _ => exact opening _ _ (by decide)
  | header =>
    obtain ⟨rest, same⟩ := headerLine_opens spec.toClassOutline
    rw [same]
    exact opening _ _ (by decide)
  | includes _ => exact inner _ _ (by decide)
  | given mem => exact .inr (.inl mem)
  | constructor =>
    have word : "def initialize(" = "def " ++ "initialize(" := by decide
    rw [word, String.append_assoc, String.append_assoc]
    exact opening _ _ (by decide)
  | assignment _ =>
    rw [String.append_assoc, String.append_assoc]
    exact inner _ _ (by decide)
  | @method m _ =>
    unfold methodLine
    split
    · exact opening _ _ (by decide)
    · simp only [String.append_assoc]
      exact opening _ _ (by decide)
  | restricted => exact inner "private" "" (by decide)
  | readers _ => exact inner _ _ (by decide)
  | empty => exact .inl rfl
  | close => rfl

private theorem endsInBlank_classLine (trimmed : spec.toClassOutline.Trimmed)
    (own : ClassLine spec settings line) : endsInBlank line.text = false := by
  have behind : ∀ {s t : String}, t ≠ "" ∧ endsInBlank t = false →
      endsInBlank (s ++ t) = false :=
    fun ⟨filled, clean⟩ => (endsInBlank_append filled).trans clean
  have name : ∀ s ∈ spec.name :: spec.parent.toList ++ spec.scopes ++ spec.includes ++
      spec.methods.keys ++ spec.directives.entries.map Prod.snd, ∀ t,
      endsInBlank (t ++ s) = false :=
    fun s mem t => behind (trimmed.names s mem)
  -- a line ends in a name that the class gives, in an instance variable, or in a mark of its own
  have field : ∀ s ∈ spec.fieldNames, s ≠ "" ∧ endsInBlank s = false := fun s mem =>
    have usable := spec.usable_fieldNames s mem
    ⟨ne_empty_of_usable usable, endsInBlank_of_usable usable⟩
  cases own with
  | frozen | restricted | empty | close => decide
  | @directive d mem =>
    have value := List.mem_map_of_mem (f := Prod.snd) mem
    have text : "# " ++ (d.1 ++ ": " ++ d.2) = ("# " ++ d.1 ++ ": ") ++ d.2 := by
      simp only [String.append_assoc]
    rw [Line.text, text]
    exact name d.2 (List.mem_append_right _ value) _
  | requires _ | requiresRelative _ => exact behind (by decide)
  | @scope scope mem => exact name scope (by simp [mem]) _
  | header =>
    unfold headerLine
    cases parent : spec.parent with
    | none => exact name spec.name (by simp) _
    | some p => exact name p (by simp [parent]) _
  | @includes own mem => exact name own (by simp [mem]) _
  | given mem => exact trimmed.given _ mem
  | constructor => exact behind (by decide)
  | @assignment own mem => exact behind (field own mem)
  | @method m mem =>
    have key : m.1 ∈ spec.methods.keys := List.mem_map_of_mem mem
    unfold methodLine
    split
    · exact name m.1 (by simp [key]) _
    · exact behind (by decide)
  | readers filled =>
    have symbols : ∀ x ∈ spec.fieldNames.map (":" ++ ·), x ≠ "" ∧ endsInBlank x = false := by
      intro x mem
      obtain ⟨own, memOwn, rfl⟩ := List.mem_map.mp mem
      exact ⟨by simp, behind (field own memOwn)⟩
    have full : String.intercalate ", " (spec.fieldNames.map (":" ++ ·)) ≠ "" := by
      cases fields : spec.fields with
      | nil => exact absurd fields filled
      | cons first rest =>
        cases rest <;> simp [ClassOutline.fieldNames, fields]
    exact behind ⟨full, endsInBlank_commaJoin symbols⟩

private theorem placed_eq_empty_of_isBlank {level : Nat} {text : String}
    (blank : Unicode.isBlankText (placed level text) = true) : placed level text = "" := by
  unfold placed at blank ⊢
  split at blank
  · next none => rw [if_pos none]
  · next visible =>
    rw [isBlankText_append, Bool.and_eq_true] at blank
    exact absurd blank.2 visible

private theorem endsInBlank_placed (level : Nat) {text : String}
    (clean : endsInBlank text = false) : endsInBlank (placed level text) = false := by
  unfold placed
  split
  · decide
  · next visible =>
    have filled : text ≠ "" := by
      rintro rfl
      exact visible (by decide)
    rw [endsInBlank_append filled, clean]

end Lines

section Rows

variable {δ : Type} {level : Nat}

private theorem spaced_groupRows_append {rows rest : List String} (full : "" ∉ rows)
    (some : rest ≠ []) (spaced : Spaced "" rest) : Spaced "" (groupRows rows ++ rest) := by
  unfold groupRows
  cases rows with
  | nil => exact spaced
  | cons r rows =>
    have whole := (Spaced.of_not_mem full).join (by simp) some spaced
    simpa using whole

private theorem spaced_nestedRows (level : Nat) (scopes : List String) {inner : List String}
    (spaced : Spaced "" inner) :
    Spaced "" (nestedRows level scopes inner) := by
  induction scopes generalizing level with
  | nil => rwa [nestedRows_nil]
  | cons scope scopes ih =>
    have opens : "" ∉ [indented level ("module " ++ scope)] := by
      simpa using empty_ne_indented_append (s := "module ") (by decide)
    have closes : "" ∉ [indented level "end"] := by
      simpa using empty_ne_indented (s := "end") (by decide)
    rw [nestedRows_cons]
    exact (Spaced.of_not_mem opens).append ((ih (level + 1)).append (.of_not_mem closes))

private theorem empty_not_mem_topRows {c : ClassOutline String}
    (given : ∀ line ∈ c.givenLines, Unicode.isBlankText line = false) : "" ∉ topRows level c := by
  intro mem
  obtain ⟨line, memLine, same⟩ := List.mem_map.mp mem
  have visible := given line memLine
  have some : line ≠ "" := by
    rintro rfl
    revert visible
    decide
  rw [visible] at same
  exact empty_ne_indented some same.symm

private theorem spaced_readerRows (c : ClassOutline δ) : Spaced "" (readerRows level c) := by
  unfold readerRows
  split
  · exact .nil
  · have word : "" ∉ [indented level "private"] := by
      simpa using empty_ne_indented (s := "private") (by decide)
    have readers : "" ∉ [indented level ("attr_reader " ++
        String.intercalate ", " ((variableNames c).map (":" ++ ·)))] := by
      simpa using empty_ne_indented_append (s := "attr_reader ") (by decide)
    exact (Spaced.of_not_mem word).join (by simp) (by simp) (.of_not_mem readers)

/-- The only empty rows inside a class stand between its sections, between its methods and behind
the word that makes the readers private. -/
private theorem spaced_bodyRows (level : Nat) {c : ClassOutline String}
    (given : ∀ line ∈ c.givenLines, Unicode.isBlankText line = false) :
    Spaced "" (bodyRows level c) := by
  refine Spaced.intercalate fun part mem => ?_
  obtain ⟨memPart, some⟩ := List.mem_filter.mp mem
  refine ⟨by simpa using some, ?_⟩
  simp only [List.mem_cons, List.not_mem_nil, or_false] at memPart
  rcases memPart with rfl | rfl | rfl | rfl | rfl
  · exact .of_not_mem (empty_not_mem_includeRows level c)
  · exact .of_not_mem (empty_not_mem_topRows given)
  · exact .of_not_mem (empty_not_mem_constructorRows level c)
  · refine Spaced.intercalate fun block mem => ?_
    obtain ⟨method, -, rfl⟩ := List.mem_map.mp mem
    exact ⟨by simp [methodRows], .of_not_mem (empty_not_mem_methodRows level method)⟩
  · exact spaced_readerRows c

private theorem spaced_layoutRows {c : ClassOutline String} (settings : Settings)
    (given : ∀ line ∈ c.givenLines, Unicode.isBlankText line = false) :
    Spaced "" (layoutRows c settings) := by
  have comments : "" ∉ commentRows c settings := by
    intro mem
    obtain ⟨d, -, same⟩ := List.mem_map.mp mem
    simp at same
  have requires : "" ∉ requireRows c := by
    intro mem
    rcases List.mem_append.mp mem with mem | mem <;>
    · obtain ⟨path, -, same⟩ := List.mem_map.mp mem
      simp at same
  have header : "" ∉ [indented (0 + c.scopes.length) (headerLine c)] := by
    obtain ⟨rest, same⟩ := headerLine_opens c
    rw [same]
    simpa using empty_ne_indented_append (s := "class ") (by decide)
  have closes : "" ∉ [indented c.scopes.length "end"] := by
    simpa using empty_ne_indented (s := "end") (by decide)
  have whole := (Spaced.of_not_mem header).append
    ((spaced_bodyRows (c.scopes.length + 1) given).append (.of_not_mem closes))
  have inside := spaced_nestedRows 0 c.scopes whole
  -- the row behind a group is a module or the class, so its empty row has no empty neighbour
  rw [layoutRows_eq]
  refine spaced_groupRows_append comments ?_ (spaced_groupRows_append requires ?_ inside)
  · simp [nestedRows]
  · simp [nestedRows]

private theorem getLast?_layoutRows (c : ClassOutline String) (settings : Settings) :
    (layoutRows c settings).getLast? = some "end" := by
  cases scopes : c.scopes with
  | nil =>
    rw [layoutRows_eq, scopes, nestedRows_nil, List.length_nil, indented_zero "end",
      ← List.cons_append, ← List.append_assoc, ← List.append_assoc, List.getLast?_concat]
  | cons scope rest =>
    rw [layoutRows_eq, scopes, nestedRows_cons, indented_zero "end", ← List.cons_append,
      ← List.append_assoc, ← List.append_assoc, List.getLast?_concat]

end Rows

end RubyScaffold.Code

namespace RubyScaffold

open Layout

/-- The lines of a document, up to the empty one behind its last line feed. It neither starts with
an empty line nor has two of them next to each other, no line holds only white space, and the last
one closes the outermost block. Each line stands behind two spaces for every module, class and
method around it, given lines with their own white space after that. No line ends in white space if
none of the texts of the class does. -/
theorem ClassSpec.document_shape (spec : ClassSpec) (settings : Settings)
    (keeps : spec.toClassOutline.KeepsLines) :
    ∃ rows, Text.lines (spec.document settings) = rows ++ [""] ∧ Spaced "" rows ∧
      (∀ r ∈ rows, Unicode.isBlankText r = true → r = "") ∧ rows.getLast? = some "end" ∧
      Nested 0 (linesOf (spec.fragments settings)) rows 0 ∧
      (∀ line ∈ linesOf (spec.fragments settings), Code.Plain spec.givenLines line) ∧
      (spec.toClassOutline.Trimmed → ∀ r ∈ rows, Text.endsInBlank r = false) := by
  have oneLine := Code.oneLine_of_keepsLines keeps settings
  refine ⟨Code.layoutRows spec.toClassOutline settings, ?_,
    Code.spaced_layoutRows settings keeps.given, ?_, Code.getLast?_layoutRows _ settings,
    Code.nested_layoutRows spec settings, ?_, ?_⟩
  · rw [Code.document_eq_layout, Code.layout, Text.lines_ofRows,
      Text.flatMap_lines_eq_self oneLine]
  · intro r mem
    obtain ⟨line, -, level, rfl⟩ := Code.exists_classLine spec settings r mem
    exact Code.placed_eq_empty_of_isBlank
  · intro line mem
    exact Code.plain_of_classLine (Code.classLine_of_mem spec settings line mem)
  · intro trimmed r mem
    obtain ⟨line, own, level, rfl⟩ := Code.exists_classLine spec settings r mem
    exact Code.endsInBlank_placed level (Code.endsInBlank_classLine trimmed own)

def lamp : ClassSpec where
  name := "Lamp"
  parent := some "Fixture"
  scopes := ["House"]
  includes := ["Switchable"]
  requires := ["json"]
  fields := ["@watts"]
  methods := ⟨[("dim", some ["level:"])], by simp⟩
  topContents := ["SHADES = [\n  :linen,\n  :paper\n]"]
  directives := .ofList [("encoding", "utf-8")]
  sound := by rfl

theorem ClassSpec.document_shape_lamp :
    lamp.toClassOutline.KeepsLines ∧ lamp.toClassOutline.Trimmed ∧
      ∃ rows, Text.lines (lamp.document {}) = rows ++ [""] ∧ Spaced "" rows ∧
        rows.getLast? = some "end" ∧ ∀ r ∈ rows, Text.endsInBlank r = false := by
  have keeps : lamp.toClassOutline.KeepsLines := ⟨by decide, by decide⟩
  have trimmed : lamp.toClassOutline.Trimmed := ⟨by decide, by decide⟩
  obtain ⟨rows, lines, spaced, -, last, -, -, clean⟩ := lamp.document_shape {} keeps
  exact ⟨keeps, trimmed, rows, lines, spaced, last, clean trimmed⟩

end RubyScaffold
