import RubyScaffold.Proofs.Code.Marked
import RubyScaffold.Proofs.Code.Sections

/-!
The instance variables of a class in the text of its document. Their names hold no comma and no line
feed, so whatever stands in the other texts, the lines of the constructor and the last lines of the
document can be told and the names taken from them.
-/

set_option autoImplicit false

namespace RubyScaffold

namespace Code

open Layout

section Rows

variable {level : Nat}

private theorem bodyRows_of_fields {c : ClassOutline String} (some : c.fields ≠ []) :
    bodyRows level c = groupRows (includeRows level c) ++ groupRows (topRows level c) ++
      constructorRows level c ++ [""] ++
      groupRows ([""].intercalate (c.methods.entries.map (methodRows level))) ++
      readerRows level c := by
  have filled : c.fields.isEmpty = false := List.isEmpty_eq_false_iff.mpr some
  have readers : readerRows level c ≠ [] := by simp [readerRows, filled]
  have constructor : groupRows (constructorRows level c) = constructorRows level c ++ [""] := by
    simp [groupRows, constructorRows, filled]
  have sections := intercalate_sections_around [includeRows level c, topRows level c,
    constructorRows level c, [""].intercalate (c.methods.entries.map (methodRows level))] readers []
  rw [bodyRows]
  refine sections.trans ?_
  simp [constructor]

private theorem endRows_of_class (scopes : List String) :
    [indented scopes.length "end"] ++ endRows scopes =
      (List.range (scopes.length + 1)).reverse.map fun i => indented i "end" := by
  rw [endRows, List.range_succ, List.reverse_append, List.map_append]
  rfl

private theorem lineFeed_not_mem_indented {line : String} (plain : '\n' ∉ line.toList) :
    '\n' ∉ (indented level line).toList := by
  simp [indented, plain]

def constructorLines (level : Nat) (params : String) (names : List String) : List String :=
  indented level ("def initialize(" ++ params ++ ")") ::
    names.map (fun name => indented (level + 1) ("@" ++ name ++ " = " ++ name)) ++
    [indented level "end"]

def keywordText (names : List String) : String :=
  String.intercalate ", " (names.map (· ++ ":"))

def readerLine (level : Nat) (symbols : String) : String :=
  indented level ("attr_reader " ++ symbols)

def symbolText (names : List String) : String :=
  String.intercalate ", " (names.map (":" ++ ·))

variable (spec : ClassSpec)

private theorem constructorRows_eq (some : spec.fields ≠ []) :
    constructorRows level spec.toClassOutline =
      constructorLines level (keywordText spec.fieldNames) spec.fieldNames := by
  have filled : spec.fields.isEmpty = false := List.isEmpty_eq_false_iff.mpr some
  simp [constructorRows, constructorLines, keywordText, filled, fieldNames_eq]

private theorem readerRows_eq (some : spec.fields ≠ []) :
    readerRows level spec.toClassOutline =
      [indented level "private", ""] ++ [readerLine level (symbolText spec.fieldNames)] := by
  have filled : spec.fields.isEmpty = false := List.isEmpty_eq_false_iff.mpr some
  simp [readerRows, readerLine, symbolText, filled, fieldNames_eq]

private theorem commaParts_fieldJoin (mark : String → String) (some : spec.fields ≠ [])
    (plain : ∀ name : String, ',' ∉ name.toList → ',' ∉ (mark name).toList) :
    Text.commaParts (String.intercalate ", " (spec.fieldNames.map mark)) =
      spec.fieldNames.map mark := by
  refine Text.commaParts_intercalate (by simpa [ClassOutline.fieldNames] using some) ?_
  intro x mem
  obtain ⟨name, memName, rfl⟩ := List.mem_map.mp mem
  exact plain name (Naming.not_mem_of_usable (spec.usable_fieldNames name memName) (by decide))

private theorem oneLine_constructorLines (level : Nat) :
    ∀ r ∈ constructorLines level (keywordText spec.fieldNames) spec.fieldNames,
      '\n' ∉ r.toList := by
  have keywords : '\n' ∉ (keywordText spec.fieldNames).toList :=
    lineFeed_not_mem_fieldJoin spec (· ++ ":") fun name free => by simpa using free
  intro r mem
  rcases List.mem_append.mp mem with mem | mem
  · rcases List.mem_cons.mp mem with rfl | mem
    · refine lineFeed_not_mem_indented ?_
      simp only [String.toList_append, List.mem_append, keywords, or_false]
      decide
    · obtain ⟨name, memName, rfl⟩ := List.mem_map.mp mem
      have own := lineFeed_not_mem_fieldNames spec name memName
      exact lineFeed_not_mem_indented (by simp [own])
  · obtain rfl := List.mem_singleton.mp mem
    exact lineFeed_not_mem_indented (by decide)

private theorem oneLine_readerLine (level : Nat) :
    ∀ r ∈ [readerLine level (symbolText spec.fieldNames)], '\n' ∉ r.toList := by
  have symbols : '\n' ∉ (symbolText spec.fieldNames).toList :=
    lineFeed_not_mem_fieldJoin spec (":" ++ ·) fun name free => by simpa using free
  intro r mem
  obtain rfl := List.mem_singleton.mp mem
  refine lineFeed_not_mem_indented ?_
  simp only [String.toList_append, List.mem_append, symbols, or_false]
  decide

private theorem oneLine_ends (count : Nat) :
    ∀ r ∈ (List.range count).reverse.map fun i => indented i "end", '\n' ∉ r.toList := by
  intro r mem
  obtain ⟨i, -, rfl⟩ := List.mem_map.mp mem
  exact lineFeed_not_mem_indented (by decide)

end Rows

section Document

variable (spec : ClassSpec)

private theorem layoutRows_of_fields (settings : Settings) (some : spec.fields ≠ []) :
    ∃ above between, layoutRows spec.toClassOutline settings =
      above ++ constructorLines (spec.scopes.length + 1) (keywordText spec.fieldNames)
        spec.fieldNames ++
      between ++ [readerLine (spec.scopes.length + 1) (symbolText spec.fieldNames)] ++
      (List.range (spec.scopes.length + 1)).reverse.map fun i => indented i "end" := by
  let c := spec.toClassOutline
  let level := spec.scopes.length + 1
  let above := groupRows (commentRows c settings) ++ groupRows (requireRows c) ++
    moduleRows c.scopes ++ [indented c.scopes.length (headerLine c)] ++
    groupRows (includeRows level c) ++ groupRows (topRows level c)
  let between := [""] ++ groupRows ([""].intercalate (c.methods.entries.map (methodRows level))) ++
    [indented level "private", ""]
  refine ⟨above, between, ?_⟩
  rw [layoutRows, List.append_assoc _ _ (endRows _), endRows_of_class, bodyRows_of_fields some,
    constructorRows_eq spec some, readerRows_eq spec some]
  simp only [above, between, c, level, List.append_assoc]

/-- The texts of the caller stand above the constructor and between it and the readers; the lines of
the constructor, of the readers and below them are rows of their own. -/
private theorem lines_document_of_fields (settings : Settings) (some : spec.fields ≠ []) :
    ∃ above between, Text.lines (spec.document settings) =
      above ++ constructorLines (spec.scopes.length + 1) (keywordText spec.fieldNames)
        spec.fieldNames ++
      between ++ [readerLine (spec.scopes.length + 1) (symbolText spec.fieldNames)] ++
      ((List.range (spec.scopes.length + 1)).reverse.map fun i => indented i "end") ++ [""] := by
  obtain ⟨above, between, rows⟩ := layoutRows_of_fields spec settings some
  have constructor := oneLine_constructorLines spec (spec.scopes.length + 1)
  have reader := oneLine_readerLine spec (spec.scopes.length + 1)
  have ends := oneLine_ends (spec.scopes.length + 1)
  refine ⟨above.flatMap Text.lines, between.flatMap Text.lines, ?_⟩
  rw [document_eq_layout, layout, Text.lines_ofRows, rows, List.flatMap_append, List.flatMap_append,
    List.flatMap_append, List.flatMap_append, Text.flatMap_lines_eq_self constructor,
    Text.flatMap_lines_eq_self reader, Text.flatMap_lines_eq_self ends]

private theorem constructorSection_eq_block (some : spec.fields ≠ []) :
    constructorSection spec.toClassOutline =
      [.block ("def initialize(" ++ keywordText spec.fieldNames ++ ")")
        (spec.fieldNames.map fun name => .line ("@" ++ name ++ " = " ++ name)) (.some "end")] := by
  have filled : spec.fields.isEmpty = false := List.isEmpty_eq_false_iff.mpr some
  simp only [constructorSection, filled, Bool.false_eq_true, if_false, Method.fragments,
    spec.signature_constructor some, keywordText]
  simp [constructor, Function.comp_def]

end Document

end Code

open Code

/-- The instance variables of an accepted class can be read back from its document, whatever else
the class holds. The document ends with the lines that close the modules and the class; the line
above them lists the private readers, and its text between commas and blanks is the list of the
instance variables, each as a symbol. Above that stands the constructor, one block whose keywords,
taken apart in the same way, are that list again and whose lines set each variable of it in order. -/
theorem ClassSpec.fields_in_document (spec : ClassSpec) (settings : Settings)
    (some : spec.fields ≠ []) :
    let depth := spec.scopes.length
    let names := spec.fieldNames
    ∃ (above between : List String) (params symbols : String),
      Text.lines (spec.document settings) =
        above ++ constructorLines (depth + 1) params names ++
        between ++ [readerLine (depth + 1) symbols] ++
        ((List.range (depth + 1)).reverse.map fun i => indented i "end") ++ [""] ∧
      Text.commaParts symbols = names.map (":" ++ ·) ∧
      Text.commaParts params = names.map (· ++ ":") ∧
      constructorSection spec.toClassOutline =
        [.block ("def initialize(" ++ params ++ ")")
          (names.map fun name => .line ("@" ++ name ++ " = " ++ name)) (.some "end")] ∧
      names.map ("@" ++ ·) = spec.fields ∧ "initialize" ∉ spec.methods.keys := by
  intro depth names
  obtain ⟨above, between, lines⟩ := lines_document_of_fields spec settings some
  refine ⟨above, between, keywordText names, symbolText names, lines,
    commaParts_fieldJoin spec (":" ++ ·) some fun name free => by simpa using free,
    commaParts_fieldJoin spec (· ++ ":") some fun name free => by simpa using free,
    constructorSection_eq_block spec some, sigiled_fieldNames spec, ?_⟩
  exact (fault?_eq_none_iff.mp spec.sound).2.resolve_left some

/-- A class whose other texts look like the lines that are read back. -/
def decoy : ClassSpec where
  name := "Decoy\nend"
  scopes := ["House", "Shelf\nend\nend"]
  fields := ["@name", "@élan", "@_1"]
  methods := .ofList [("end\n      attr_reader :fake", none), ("call", some ["a, b"])]
  topContents := ["def initialize(fake:)", "end\nattr_reader :fake"]
  directives := .ofList [("note", "a\nend")]
  sound := by decide +kernel

theorem ClassSpec.fields_in_document_decoy :
    decoy.fields ≠ [] ∧
      ∃ (above between : List String) (params symbols : String),
        Text.lines (decoy.document {}) =
          above ++ constructorLines 3 params ["name", "élan", "_1"] ++ between ++
          [readerLine 3 symbols] ++ ["    end", "  end", "end"] ++ [""] ∧
        Text.commaParts symbols = [":name", ":élan", ":_1"] ∧
        Text.commaParts params = ["name:", "élan:", "_1:"] := by
  have some : decoy.fields ≠ [] := List.cons_ne_nil _ _
  have names : decoy.fieldNames = ["name", "élan", "_1"] := by decide
  have ends : (List.range 3).reverse.map (fun i => indented i "end") =
      ["    end", "  end", "end"] := by decide
  obtain ⟨above, between, params, symbols, lines, read, keywords, -⟩ :=
    decoy.fields_in_document {} some
  rw [names] at lines read keywords
  exact ⟨some, above, between, params, symbols, ends ▸ lines, read, keywords⟩

end RubyScaffold
