import RubyScaffold.Proofs.Code.Lines

/-!
The inside of a class as blocks of rows with an empty row between neighbours. The first word of a
block tells what it is, so the blocks determine what the class includes, its instance variables
and its methods.
-/

set_option autoImplicit false

namespace RubyScaffold.Code

open Text

variable {δ : Type} {level : Nat}

def Opens (level : Nat) (word : String) (block : List String) : Prop :=
  ∃ rest, block.head? = some (indented level (word ++ rest))

def includeBlocks (level : Nat) (c : ClassOutline δ) : List (List String) :=
  if c.includes.isEmpty then [] else [includeRows level c]

def constructorBlocks (level : Nat) (c : ClassOutline δ) : List (List String) :=
  if c.fields.isEmpty then [] else [constructorRows level c]

def methodBlocks (level : Nat) (c : ClassOutline δ) : List (List String) :=
  constructorBlocks level c ++ c.methods.entries.map (methodRows level)

/-- The word that makes the readers private is a block of its own. -/
def readerBlocks (level : Nat) (c : ClassOutline δ) : List (List String) :=
  if c.fields.isEmpty then []
  else
    [[indented level "private"], [indented level ("attr_reader " ++
      String.intercalate ", " ((variableNames c).map (":" ++ ·)))]]

private theorem opens_include {c : ClassOutline δ} :
    ∀ block ∈ includeBlocks level c, Opens level "include " block := by
  unfold includeBlocks includeRows
  cases c.includes with
  | nil => simp
  | cons name rest =>
    intro block mem
    obtain rfl := List.mem_singleton.mp mem
    exact ⟨name, rfl⟩

private theorem opens_method {c : ClassOutline δ} :
    ∀ block ∈ methodBlocks level c, Opens level "def " block := by
  intro block mem
  rcases List.mem_append.mp mem with mem | mem
  · unfold constructorBlocks constructorRows at mem
    split at mem
    · simp at mem
    · obtain rfl := List.mem_singleton.mp mem
      have word : "def initialize(" = "def " ++ "initialize(" := by decide
      refine ⟨"initialize(" ++ (String.intercalate ", " ((variableNames c).map (· ++ ":")) ++ ")"),
        ?_⟩
      rw [← String.append_assoc, ← String.append_assoc, ← word]
      rfl
  · obtain ⟨method, -, rfl⟩ := List.mem_map.mp mem
    unfold methodRows methodLine
    split
    · exact ⟨_, rfl⟩
    · exact ⟨method.1 ++ ("(" ++ (String.intercalate ", " (method.2.getD []) ++ ")")),
        by simp [String.append_assoc]⟩

private theorem opens_reader {c : ClassOutline δ} :
    ∀ block ∈ readerBlocks level c,
      Opens level "private" block ∨ Opens level "attr_reader " block := by
  intro block mem
  unfold readerBlocks at mem
  split at mem
  · simp at mem
  · rcases List.mem_cons.mp mem with rfl | mem
    · exact .inl ⟨"", by simp⟩
    · obtain rfl := List.mem_singleton.mp mem
      exact .inr ⟨_, rfl⟩

private theorem Opens.ne_nil {word : String} {block : List String}
    (opens : Opens level word block) : block ≠ [] := by
  rintro rfl
  obtain ⟨rest, head⟩ := opens
  simp at head

private theorem bodyRows_eq {c : ClassOutline δ} (noTop : c.topContents = []) :
    bodyRows level c = [""].intercalate
      (includeBlocks level c ++ (methodBlocks level c ++ readerBlocks level c)) := by
  have whole : ∀ part ∈ [includeBlocks level c, [], constructorBlocks level c,
      c.methods.entries.map (methodRows level), readerBlocks level c],
      ∀ block ∈ part, block ≠ [] := by
    intro part memPart block mem
    simp only [List.mem_cons, List.not_mem_nil, or_false] at memPart
    rcases memPart with rfl | rfl | rfl | rfl | rfl
    · exact (opens_include block mem).ne_nil
    · simp at mem
    · exact (opens_method block (List.mem_append_left _ mem)).ne_nil
    · exact (opens_method block (List.mem_append_right _ mem)).ne_nil
    · rcases opens_reader block mem with opens | opens <;> exact opens.ne_nil
  have joined := intercalate_sections [""] whole
  have includes : [""].intercalate (includeBlocks level c) = includeRows level c := by
    unfold includeBlocks includeRows
    cases c.includes <;> simp
  have top : topRows level c = [] := by simp [topRows, noTop]
  have constructor : [""].intercalate (constructorBlocks level c) = constructorRows level c := by
    unfold constructorBlocks constructorRows
    cases c.fields <;> simp
  have readers : [""].intercalate (readerBlocks level c) = readerRows level c := by
    unfold readerBlocks readerRows
    cases c.fields <;> simp
  simp only [List.map_cons, List.map_nil, includes, constructor, readers,
    List.intercalate_nil] at joined
  rw [bodyRows, top, joined]
  simp [methodBlocks]

theorem empty_ne_indented {level : Nat} {s : String} (some : s ≠ "") : "" ≠ indented level s := by
  intro same
  simp [indented, eq_comm (a := ""), some] at same

theorem empty_ne_indented_append {level : Nat} {s t : String} (some : s ≠ "") :
    "" ≠ indented level (s ++ t) :=
  empty_ne_indented (by simp [some])

theorem empty_not_mem_includeRows (level : Nat) (c : ClassOutline δ) :
    "" ∉ includeRows level c := by
  intro row
  obtain ⟨name, -, same⟩ := List.mem_map.mp row
  exact empty_ne_indented_append (by decide) same.symm

theorem empty_not_mem_constructorRows (level : Nat) (c : ClassOutline δ) :
    "" ∉ constructorRows level c := by
  unfold constructorRows
  split
  · simp
  · intro row
    simp only [List.mem_append, List.mem_singleton, List.mem_map] at row
    rcases row with (row | ⟨name, -, row⟩) | row
    · rw [String.append_assoc] at row
      exact empty_ne_indented_append (by decide) row
    · rw [String.append_assoc, String.append_assoc] at row
      exact empty_ne_indented_append (by decide) row.symm
    · exact empty_ne_indented (by decide) row

theorem empty_not_mem_methodRows (level : Nat) (method : String × Option (List String)) :
    "" ∉ methodRows level method := by
  intro row
  rcases List.mem_cons.mp row with row | row
  · unfold methodLine at row
    split at row
    · exact empty_ne_indented_append (by decide) row
    · rw [String.append_assoc, String.append_assoc, String.append_assoc] at row
      exact empty_ne_indented_append (by decide) row
  · exact empty_ne_indented (by decide) (List.mem_singleton.mp row)

private theorem empty_not_mem_block {c : ClassOutline δ} :
    ∀ block ∈ includeBlocks level c ++ (methodBlocks level c ++ readerBlocks level c),
      "" ∉ block := by
  intro block mem
  simp only [methodBlocks, List.mem_append, List.mem_map] at mem
  rcases mem with mem | (mem | ⟨method, -, rfl⟩) | mem
  · unfold includeBlocks at mem
    split at mem
    · simp at mem
    · obtain rfl := List.mem_singleton.mp mem
      exact empty_not_mem_includeRows level c
  · unfold constructorBlocks at mem
    split at mem
    · simp at mem
    · obtain rfl := List.mem_singleton.mp mem
      exact empty_not_mem_constructorRows level c
  · exact empty_not_mem_methodRows level method
  · unfold readerBlocks at mem
    split at mem
    · simp at mem
    · rcases List.mem_cons.mp mem with rfl | mem
      · intro row
        exact empty_ne_indented (by decide) (List.mem_singleton.mp row)
      · obtain rfl := List.mem_singleton.mp mem
        intro row
        exact empty_ne_indented_append (by decide) (List.mem_singleton.mp row)

private theorem Opens.word_inj {word word' : String} {block : List String}
    (opens : Opens level word block) (opens' : Opens level word' block) :
    ∃ rest rest', word ++ rest = word' ++ rest' := by
  obtain ⟨rest, head⟩ := opens
  obtain ⟨rest', head'⟩ := opens'
  exact ⟨rest, rest', indented_inj (Option.some.inj (head.symm.trans head'))⟩

private theorem include_not_method {block : List String} (opens : Opens level "include " block) :
    ¬ Opens level "def " block := fun other => by
  obtain ⟨rest, rest', same⟩ := opens.word_inj other
  simpa using congrArg String.toList same

private theorem reader_not_other {word : String} {block : List String}
    (opens : Opens level "private" block ∨ Opens level "attr_reader " block)
    (other : word = "include " ∨ word = "def ") : ¬ Opens level word block := fun first => by
  rcases opens with opens | opens <;> rcases other with rfl | rfl <;>
  · obtain ⟨rest, rest', same⟩ := opens.word_inj first
    simpa using congrArg String.toList same

/-- The rows of the bodies of two classes determine their three kinds of blocks. -/
theorem blocks_inj {c d : ClassOutline δ} (noTop : c.topContents = []) (noTop' : d.topContents = [])
    (same : bodyRows level c = bodyRows level d) :
    includeBlocks level c = includeBlocks level d ∧ methodBlocks level c = methodBlocks level d ∧
      readerBlocks level c = readerBlocks level d := by
  have whole : ∀ c : ClassOutline δ,
      ∀ block ∈ includeBlocks level c ++ (methodBlocks level c ++ readerBlocks level c),
        block ≠ [] ∧ "" ∉ block := by
    intro c block mem
    refine ⟨?_, empty_not_mem_block block mem⟩
    rcases List.mem_append.mp mem with mem | mem
    · exact (opens_include block mem).ne_nil
    · rcases List.mem_append.mp mem with mem | mem
      · exact (opens_method block mem).ne_nil
      · rcases opens_reader block mem with opens | opens <;> exact opens.ne_nil
  have noInclude : ∀ c : ClassOutline δ,
      ∀ block ∈ (methodBlocks level c ++ readerBlocks level c).head?,
        ¬ Opens level "include " block := by
    intro c block head
    rcases List.mem_append.mp (List.mem_of_mem_head? head) with mem | mem
    · exact fun opens => include_not_method opens (opens_method block mem)
    · exact reader_not_other (opens_reader block mem) (.inl rfl)
  have noMethod : ∀ c : ClassOutline δ, ∀ block ∈ (readerBlocks level c).head?,
      ¬ Opens level "def " block := by
    intro c block head
    exact reader_not_other (opens_reader block (List.mem_of_mem_head? head)) (.inr rfl)
  rw [bodyRows_eq noTop, bodyRows_eq noTop'] at same
  have blocks := intercalate_inj (whole c) (whole d) same
  obtain ⟨includes, rest⟩ := append_inj_of_boundary opens_include opens_include (noInclude c)
    (noInclude d) blocks
  exact ⟨includes, append_inj_of_boundary opens_method opens_method (noMethod c) (noMethod d) rest⟩

end RubyScaffold.Code
