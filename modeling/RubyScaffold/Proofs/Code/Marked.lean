import RubyScaffold.Proofs.Code.Inventory

/-!
Outlines whose texts stay where they are put: no text goes over a line, so every row of their layout
is one line. If moreover no name holds the mark behind it, the layout shows where each text ends.
-/

set_option autoImplicit false

namespace RubyScaffold

def ClassOutline.texts (c : ClassOutline String) : List String :=
  c.name :: c.parent.toList ++ c.scopes ++ c.includes ++ c.requires ++ c.relativeRequires ++
    c.fields ++ c.methods.entries.flatMap (fun m => m.1 :: m.2.getD []) ++ c.topContents ++
    c.directives.entries.flatMap fun d => [d.1, d.2]

def ClassOutline.givenLines (c : ClassOutline String) : List String :=
  c.topContents.flatMap Text.lines

/-- An outline without line feeds outside of the contents given as they are, in which every given
line shows something. -/
structure ClassOutline.KeepsLines (c : ClassOutline String) : Prop where
  oneLine : ∀ s ∈ ClassOutline.texts { c with topContents := [] }, '\n' ∉ s.toList
  given : ∀ line ∈ c.givenLines, Unicode.isBlankText line = false

/-- An outline without contents given as they are and without line feeds, in which no name holds
the mark that ends it. -/
structure ClassOutline.Marked (c : ClassOutline String) : Prop where
  noTop : c.topContents = []
  oneLine : ∀ s ∈ c.texts, '\n' ∉ s.toList
  name : '<' ∉ c.name.toList
  keys : ∀ d ∈ c.directives.entries, ':' ∉ d.1.toList
  methods : ∀ m ∈ c.methods.entries, '(' ∉ m.1.toList
  params : ∀ m ∈ c.methods.entries, ∀ p ∈ m.2.getD [], ',' ∉ p.toList

private theorem ClassOutline.Marked.keepsLines {c : ClassOutline String} (marked : c.Marked) :
    c.KeepsLines where
  oneLine := by
    have same : { c with topContents := [] } = c := by rw [← marked.noTop]
    rw [same]
    exact marked.oneLine
  given := by simp [ClassOutline.givenLines, marked.noTop]

end RubyScaffold

namespace RubyScaffold.Code

open Layout

private theorem lineFeed_not_mem_commaJoin {xs : List String} (plain : ∀ x ∈ xs, '\n' ∉ x.toList) :
    '\n' ∉ (String.intercalate ", " xs).toList := by
  induction xs with
  | nil => simp
  | cons x xs ih =>
    have first := plain x List.mem_cons_self
    have rest := ih fun x mem => plain x (List.mem_cons_of_mem _ mem)
    cases xs with
    | nil => simpa using first
    | cons y ys =>
      rw [String.intercalate_cons_cons]
      simp only [String.toList_append, List.mem_append, first, rest, or_false, false_or]
      decide

private theorem lineFeed_not_mem_placed {level : Nat} {line : String} (plain : '\n' ∉ line.toList) :
    '\n' ∉ (placed level line).toList := by
  rw [← row_eq_placed]
  exact lineFeed_not_mem_row plain

variable {spec : ClassSpec} {settings : Settings}

theorem lineFeed_not_mem_fieldNames (spec : ClassSpec) :
    ∀ name ∈ spec.fieldNames, '\n' ∉ name.toList :=
  fun name mem => Naming.not_mem_of_usable (spec.usable_fieldNames name mem) (by decide)

theorem lineFeed_not_mem_fieldJoin (spec : ClassSpec) (mark : String → String)
    (plain : ∀ name : String, '\n' ∉ name.toList → '\n' ∉ (mark name).toList) :
    '\n' ∉ (String.intercalate ", " (spec.fieldNames.map mark)).toList := by
  refine lineFeed_not_mem_commaJoin fun x mem => ?_
  obtain ⟨name, memName, rfl⟩ := List.mem_map.mp mem
  exact plain name (lineFeed_not_mem_fieldNames spec name memName)

private theorem lineFeed_not_mem_classLine (keeps : spec.toClassOutline.KeepsLines) {line : Line}
    (own : ClassLine spec settings line) : '\n' ∉ line.text.toList := by
  -- the names of instance variables are checked, all other texts are taken as they are
  have plain := keeps.oneLine
  simp only [ClassOutline.texts, List.append_nil] at plain
  have names := lineFeed_not_mem_fieldNames spec
  cases own with
  | frozen | restricted | empty | close => decide
  | @directive d mem =>
    have key := plain d.1 (by simp only [List.mem_append]; grind)
    have value := plain d.2 (by simp only [List.mem_append]; grind)
    simp [Line.text, key, value]
  | @requires path mem | @requiresRelative path mem =>
    have own := plain path (by simp [mem])
    simp [Line.text, own]
  | @scope scope mem | @includes scope mem =>
    have own := plain scope (by simp [mem])
    simp [Line.text, own]
  | header =>
    have name := plain spec.name (by simp)
    unfold headerLine
    cases parent : spec.parent with
    | none => simp [Line.text, name]
    | some p =>
      have own := plain p (by simp [parent])
      simp [Line.text, name, own]
  | given mem =>
    obtain ⟨content, -, piece⟩ := List.mem_flatMap.mp mem
    exact Text.lineFeed_not_mem_line piece
  | constructor =>
    have params := lineFeed_not_mem_fieldJoin spec (· ++ ":")
      fun name free => by simpa using free
    simp only [Line.text, String.toList_append, List.mem_append, params, or_false]
    decide
  | @assignment name mem => simp [Line.text, names name mem]
  | @method m mem =>
    have name := plain m.1 (by simp only [List.mem_append]; grind)
    have params : '\n' ∉ (String.intercalate ", " (m.2.getD [])).toList :=
      lineFeed_not_mem_commaJoin fun p memP => plain p (by simp only [List.mem_append]; grind)
    unfold methodLine
    split
    · simp [Line.text, name]
    · simp only [Line.text, String.toList_append, List.mem_append, name, params, or_false]
      decide
  | readers =>
    have symbols := lineFeed_not_mem_fieldJoin spec (":" ++ ·)
      fun name free => by simpa using free
    simp only [Line.text, String.toList_append, List.mem_append, symbols, or_false]
    decide

theorem oneLine_of_keepsLines (keeps : spec.toClassOutline.KeepsLines) (settings : Settings) :
    ∀ r ∈ layoutRows spec.toClassOutline settings, '\n' ∉ r.toList := by
  intro r mem
  obtain ⟨line, own, level, rfl⟩ := exists_classLine spec settings r mem
  exact lineFeed_not_mem_placed (lineFeed_not_mem_classLine keeps own)

theorem oneLine_layoutRows (marked : spec.toClassOutline.Marked) (settings : Settings) :
    ∀ r ∈ layoutRows spec.toClassOutline settings, '\n' ∉ r.toList :=
  oneLine_of_keepsLines marked.keepsLines settings

end RubyScaffold.Code
