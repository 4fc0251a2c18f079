import RubyScaffold.Proofs.Code.Blocks
import RubyScaffold.Proofs.Code.Marked

/-!
The document of a class determines the class. No reader of documents is written for this: the
reference layout is taken apart from the outside in, and at every step the two classes are shown
to agree on the part taken off.
-/

set_option autoImplicit false

namespace RubyScaffold.Code

open Text

variable {δ : Type} {level : Nat}

section Inside

private theorem includes_of_blocks {c d : ClassOutline δ}
    (same : includeBlocks level c = includeBlocks level d) : c.includes = d.includes := by
  have rows : includeRows level c = includeRows level d := by
    unfold includeBlocks at same
    unfold includeRows at same ⊢
    cases left : c.includes <;> cases right : d.includes <;> simp [left, right] at same ⊢
    exact same
  refine (List.map_inj_right fun name name' line => ?_).mp rows
  exact (String.append_right_inj _).mp (indented_inj line)

private theorem comma_not_mem_reader (spec : ClassSpec) :
    ∀ x ∈ (variableNames spec.toClassOutline).map (":" ++ ·), ',' ∉ x.toList := by
  intro x mem comma
  obtain ⟨name, memName, rfl⟩ := List.mem_map.mp mem
  refine comma_not_mem_field spec ("@" ++ name) ?_ (by simpa using comma)
  rw [fields_eq]
  exact List.mem_map_of_mem memName

private theorem fields_of_blocks {a b : ClassSpec}
    (same : readerBlocks level a.toClassOutline = readerBlocks level b.toClassOutline) :
    a.fields = b.fields := by
  unfold readerBlocks at same
  cases left : a.fields with
  | nil =>
    cases right : b.fields with
    | nil => rfl
    | cons field rest => simp [left, right] at same
  | cons field rest =>
    cases right : b.fields with
    | nil => simp [left, right] at same
    | cons field' rest' =>
      simp only [left, right, List.isEmpty_cons, Bool.false_eq_true, if_false, List.cons.injEq,
        and_true, true_and] at same
      have names : variableNames a.toClassOutline = variableNames b.toClassOutline := by
        have joined := commaJoin_inj (comma_not_mem_reader a) (comma_not_mem_reader b)
          (by simp [variableNames, left]) (by simp [variableNames, right])
          ((String.append_right_inj _).mp (indented_inj same))
        exact (List.map_inj_right fun _ _ => (String.append_right_inj _).mp).mp joined
      rw [← left, ← right, fields_eq, fields_eq, names]

private theorem methods_of_blocks {c d : ClassOutline String} (marked : c.Marked)
    (marked' : d.Marked) (fields : c.fields = d.fields)
    (same : methodBlocks level c = methodBlocks level d) :
    c.methods.entries.map (fun m => (m.1, m.2.getD [])) =
      d.methods.entries.map fun m => (m.1, m.2.getD []) := by
  have constructor : constructorBlocks level c = constructorBlocks level d := by
    unfold constructorBlocks constructorRows variableNames
    rw [fields]
  rw [methodBlocks, methodBlocks, constructor, List.append_cancel_left_eq] at same
  refine map_eq_of_map_eq (fun m mem m' mem' rows => ?_) same
  obtain ⟨name, params⟩ := methodLine_inj (marked.methods m mem) (marked'.methods m' mem')
    (marked.params m mem) (marked'.params m' mem') (indented_inj (List.cons.inj rows).1)
  rw [name, params]

end Inside

section Nesting

def nestedRows (level : Nat) (scopes inner : List String) : List String :=
  scopes.mapIdx (fun i scope => indented (level + i) ("module " ++ scope)) ++ inner ++
    (List.range scopes.length).reverse.map fun i => indented (level + i) "end"

theorem nestedRows_nil (inner : List String) : nestedRows level [] inner = inner := by
  simp [nestedRows]

theorem nestedRows_cons (scope : String) (scopes inner : List String) :
    nestedRows level (scope :: scopes) inner =
      indented level ("module " ++ scope) :: (nestedRows (level + 1) scopes inner ++
        [indented level "end"]) := by
  simp [nestedRows, List.mapIdx_cons, List.range_succ_eq_map, List.map_reverse, Function.comp_def,
    Nat.add_assoc, Nat.add_comm 1]

theorem headerLine_opens (c : ClassOutline δ) : ∃ t, headerLine c = "class " ++ t := by
  unfold headerLine
  cases c.parent with
  | none => exact ⟨_, rfl⟩
  | some parent => exact ⟨c.name ++ (" < " ++ parent), by simp only [String.append_assoc]⟩

private theorem header_ne_module {header scope : String} (opens : ∃ t, header = "class " ++ t) :
    header ≠ "module " ++ scope := by
  obtain ⟨t, rfl⟩ := opens
  intro same
  simpa using congrArg String.toList same

/-- The first row at its own depth that is no module is the header of the class. -/
private theorem nestedRows_inj {scopes scopes' inner inner' : List String} {header header' : String}
    (opens : ∃ t, header = "class " ++ t) (opens' : ∃ t, header' = "class " ++ t)
    (same : nestedRows level scopes (indented (level + scopes.length) header :: inner) =
      nestedRows level scopes' (indented (level + scopes'.length) header' :: inner')) :
    scopes = scopes' ∧ header = header' ∧ inner = inner' := by
  induction scopes generalizing level scopes' with
  | nil =>
    cases scopes' with
    | nil =>
      rw [nestedRows_nil, nestedRows_nil] at same
      obtain ⟨first, rest⟩ := List.cons.inj same
      exact ⟨rfl, indented_inj first, rest⟩
    | cons scope' scopes' =>
      rw [nestedRows_nil, nestedRows_cons] at same
      exact absurd (indented_inj (List.cons.inj same).1) (header_ne_module opens)
  | cons scope scopes ih =>
    cases scopes' with
    | nil =>
      rw [nestedRows_nil, nestedRows_cons] at same
      exact absurd (indented_inj (List.cons.inj same).1).symm (header_ne_module opens')
    | cons scope' scopes' =>
      rw [nestedRows_cons, nestedRows_cons] at same
      obtain ⟨first, rest⟩ := List.cons.inj same
      have inside := List.append_cancel_right rest
      rw [List.length_cons, List.length_cons, Nat.add_comm scopes.length,
        Nat.add_comm scopes'.length, ← Nat.add_assoc, ← Nat.add_assoc] at inside
      obtain ⟨scopesEq, headerEq, innerEq⟩ := ih inside
      have scopeEq : scope = scope' := (String.append_right_inj _).mp (indented_inj first)
      exact ⟨by rw [scopeEq, scopesEq], headerEq, innerEq⟩

end Nesting

section Preamble

private theorem groupRows_inj {p : String → Prop} {xs ys zs ws : List String} (allX : ∀ x ∈ xs, p x)
    (allY : ∀ y ∈ ys, p y) (blank : ¬ p "") (endX : ∀ z ∈ zs.head?, ¬ p z)
    (endY : ∀ w ∈ ws.head?, ¬ p w) (same : groupRows xs ++ zs = groupRows ys ++ ws) :
    xs = ys ∧ zs = ws := by
  have split : ∀ xs zs : List String,
      groupRows xs ++ zs = xs ++ if xs.isEmpty then zs else "" :: zs := by
    intro xs zs
    cases xs <;> simp [groupRows]
  have ends : ∀ xs zs : List String, (∀ z ∈ zs.head?, ¬ p z) →
      ∀ z ∈ (if xs.isEmpty then zs else "" :: zs).head?, ¬ p z := by
    intro xs zs none z mem
    cases xs with
    | nil => exact none z mem
    | cons x xs =>
      simp only [List.isEmpty_cons, Bool.false_eq_true, if_false, List.head?_cons,
        Option.mem_def, Option.some.injEq] at mem
      exact mem ▸ blank
  rw [split, split] at same
  obtain ⟨rfl, rest⟩ := append_inj_of_boundary allX allY (ends xs zs endX) (ends ys ws endY) same
  cases xs with
  | nil => exact ⟨rfl, rest⟩
  | cons x xs => exact ⟨rfl, by simpa using rest⟩

private theorem directives_of_comments {c d : ClassOutline String} {settings : Settings}
    (marked : c.Marked) (marked' : d.Marked)
    (same : commentRows c settings = commentRows d settings) (e : String × String)
    (shown : settings.frozenStringLiteral = true → e.1 ≠ "frozen_string_literal") :
    e ∈ c.directives.entries ↔ e ∈ d.directives.entries := by
  have free : ∀ {c : ClassOutline String}, c.Marked → ∀ d ∈ wantedDirectives c settings,
      ':' ∉ d.1.toList := by
    intro c marked d mem
    rcases mem_wantedDirectives.mp mem with ⟨-, rfl⟩ | ⟨mem, -⟩
    · decide
    · exact marked.keys d mem
  have sorted := map_eq_of_map_eq (g := id) (fun d mem d' mem' line => by
    obtain ⟨key, value⟩ := commentLine_inj (free marked d (List.mem_mergeSort.mp mem))
      (free marked' d' (List.mem_mergeSort.mp mem')) line
    exact Prod.ext key value) same
  rw [List.map_id, List.map_id] at sorted
  have wanted : e ∈ wantedDirectives c settings ↔ e ∈ wantedDirectives d settings := by
    rw [← List.mem_mergeSort (a := e), sorted, List.mem_mergeSort]
  rw [mem_wantedDirectives, mem_wantedDirectives] at wanted
  have notFrozen : ¬ (settings.frozenStringLiteral = true ∧
      e = ("frozen_string_literal", "true")) := fun ⟨frozen, eq⟩ => shown frozen (by rw [eq])
  rwa [or_iff_right notFrozen, or_iff_right notFrozen, and_iff_left shown,
    and_iff_left shown] at wanted

private theorem requires_of_rows {c d : ClassOutline δ} (same : requireRows c = requireRows d) :
    c.requires = d.requires ∧ c.relativeRequires = d.relativeRequires := by
  have differ : ∀ s t : String, "require_relative \"" ++ s ≠ "require \"" ++ t :=
    fun s t eq => by simpa using congrArg String.toList eq
  have allAbsolute : ∀ c : ClassOutline δ, ∀ row ∈ c.requires.map fun path =>
      "require \"" ++ path ++ "\"", ∃ t, row = "require \"" ++ t := by
    intro c row mem
    obtain ⟨path, -, rfl⟩ := List.mem_map.mp mem
    exact ⟨path ++ "\"", String.append_assoc⟩
  have noAbsolute : ∀ c : ClassOutline δ, ∀ row ∈ (c.relativeRequires.map fun path =>
      "require_relative \"" ++ path ++ "\"").head?, ¬ ∃ t, row = "require \"" ++ t := by
    rintro c row head ⟨t, eq⟩
    obtain ⟨path, -, rfl⟩ := List.mem_map.mp (List.mem_of_mem_head? head)
    rw [String.append_assoc] at eq
    exact differ _ _ eq
  have quoted : ∀ {word s t : String}, word ++ s ++ "\"" = word ++ t ++ "\"" → s = t :=
    fun eq => (String.append_right_inj _).mp ((String.append_left_inj _).mp eq)
  obtain ⟨absolute, relative⟩ := append_inj_of_boundary (allAbsolute c) (allAbsolute d)
    (noAbsolute c) (noAbsolute d) same
  exact ⟨(List.map_inj_right fun _ _ => quoted).mp absolute,
    (List.map_inj_right fun _ _ => quoted).mp relative⟩

end Preamble

section Document

theorem layoutRows_eq (c : ClassOutline String) (settings : Settings) :
    layoutRows c settings = groupRows (commentRows c settings) ++ (groupRows (requireRows c) ++
      nestedRows 0 c.scopes (indented (0 + c.scopes.length) (headerLine c) ::
        (bodyRows (c.scopes.length + 1) c ++ [indented c.scopes.length "end"]))) := by
  simp [layoutRows, nestedRows, moduleRows, endRows]

/-- What follows the comments of a layout starts with no comment sign, and what follows the files
to load with no word for loading. -/
private theorem nestedRows_head (scopes inner : List String) {header : String}
    (opens : ∃ t, header = "class " ++ t) :
    ∀ row ∈ (nestedRows 0 scopes (indented (0 + scopes.length) header :: inner)).head?,
      ∃ t, row = "class " ++ t ∨ row = "module " ++ t := by
  intro row head
  cases scopes with
  | nil =>
    obtain ⟨t, rfl⟩ := opens
    simp only [nestedRows_nil, List.head?_cons, Option.mem_def, Option.some.injEq,
      List.length_nil, Nat.add_zero, indented_zero] at head
    exact ⟨t, .inl head.symm⟩
  | cons scope scopes =>
    simp only [nestedRows_cons, List.head?_cons, Option.mem_def, Option.some.injEq,
      indented_zero] at head
    exact ⟨scope, .inr head.symm⟩

private theorem layoutRows_inj {c d : ClassOutline String} {settings : Settings}
    (same : layoutRows c settings = layoutRows d settings) :
    commentRows c settings = commentRows d settings ∧ requireRows c = requireRows d ∧
      c.scopes = d.scopes ∧ headerLine c = headerLine d ∧
      bodyRows (c.scopes.length + 1) c = bodyRows (c.scopes.length + 1) d := by
  have comments : ∀ c : ClassOutline String, ∀ row ∈ commentRows c settings,
      row.toList.head? = some '#' := by
    intro c row mem
    obtain ⟨e, -, rfl⟩ := List.mem_map.mp mem
    simp
  have requires : ∀ c : ClassOutline String, ∀ row ∈ requireRows c,
      row.toList.head? = some 'r' := by
    intro c row mem
    rcases List.mem_append.mp mem with mem | mem
    · obtain ⟨path, -, rfl⟩ := List.mem_map.mp mem
      simp
    · obtain ⟨path, -, rfl⟩ := List.mem_map.mp mem
      simp
  have nested : ∀ c : ClassOutline String, ∀ inner : List String,
      ∀ row ∈ (nestedRows 0 c.scopes
        (indented (0 + c.scopes.length) (headerLine c) :: inner)).head?,
        row.toList.head? ≠ some '#' ∧ row.toList.head? ≠ some 'r' := by
    intro c inner row head
    obtain ⟨t, rfl | rfl⟩ := nestedRows_head c.scopes inner (headerLine_opens c) row head <;>
    simp
  have loaded : ∀ c : ClassOutline String, ∀ inner : List String,
      ∀ row ∈ (groupRows (requireRows c) ++ nestedRows 0 c.scopes
        (indented (0 + c.scopes.length) (headerLine c) :: inner)).head?,
        row.toList.head? ≠ some '#' := by
    intro c inner row head
    unfold groupRows at head
    cases rows : requireRows c with
    | nil => exact (nested c inner row (by simpa [rows] using head)).1
    | cons first rest =>
      have start := requires c first (by simp [rows])
      simp only [rows, List.isEmpty_cons, Bool.false_eq_true, if_false, List.cons_append,
        List.head?_cons, Option.mem_def, Option.some.injEq] at head
      rw [← head, start]
      decide
  rw [layoutRows_eq, layoutRows_eq] at same
  obtain ⟨commentsEq, rest⟩ := groupRows_inj (comments c) (comments d) (by simp) (loaded c _)
    (loaded d _) same
  obtain ⟨requiresEq, rest⟩ := groupRows_inj (requires c) (requires d) (by simp)
    (fun row head => (nested c _ row head).2) (fun row head => (nested d _ row head).2) rest
  obtain ⟨scopesEq, headerEq, bodyEq⟩ :=
    nestedRows_inj (headerLine_opens c) (headerLine_opens d) rest
  rw [← scopesEq] at bodyEq
  exact ⟨commentsEq, requiresEq, scopesEq, headerEq, List.append_cancel_right bodyEq⟩

end Document

end RubyScaffold.Code

namespace RubyScaffold

/-- Two accepted classes with the same document are the same class, up to what no document shows:
whether a method without parameters has an empty list of them, the order of the directives, and
the directive that the settings replace. -/
theorem ClassSpec.eq_of_document_eq (a b : ClassSpec) (settings : Settings)
    (marked : a.toClassOutline.Marked) (marked' : b.toClassOutline.Marked)
    (same : a.document settings = b.document settings) :
    a.name = b.name ∧ a.parent = b.parent ∧ a.scopes = b.scopes ∧ a.includes = b.includes ∧
      a.requires = b.requires ∧ a.relativeRequires = b.relativeRequires ∧ a.fields = b.fields ∧
      (a.methods.entries.map fun m => (m.1, m.2.getD [])) =
        (b.methods.entries.map fun m => (m.1, m.2.getD [])) ∧
      ∀ key value : String,
        (settings.frozenStringLiteral = true → key ≠ "frozen_string_literal") →
        ((key, value) ∈ a.directives.entries ↔ (key, value) ∈ b.directives.entries) := by
  rw [Code.document_eq_layout, Code.document_eq_layout] at same
  have rows := Text.ofRows_inj (Code.oneLine_layoutRows marked settings)
    (Code.oneLine_layoutRows marked' settings) same
  obtain ⟨comments, requires, scopes, header, body⟩ := Code.layoutRows_inj rows
  obtain ⟨name, parent⟩ := Code.headerLine_inj marked.name marked'.name header
  obtain ⟨absolute, relative⟩ := Code.requires_of_rows requires
  obtain ⟨includes, methods, readers⟩ := Code.blocks_inj marked.noTop marked'.noTop body
  have fields := Code.fields_of_blocks readers
  exact ⟨name, parent, scopes, Code.includes_of_blocks includes, absolute, relative, fields,
    Code.methods_of_blocks marked marked' fields methods,
    fun key value shown => Code.directives_of_comments marked marked' comments (key, value) shown⟩

def greeter (params : Option (List String)) (directives : OrderedMap String) : ClassSpec where
  name := "Greeter"
  parent := some "Base"
  scopes := ["Admin"]
  fields := ["@name"]
  methods := ⟨[("call", params)], by simp⟩
  directives := directives
  sound := by rfl

/-- Classes that differ in all that a document does not show. -/
theorem greeter_eq_of_document_eq :
    let a := greeter none (.ofList [("frozen_string_literal", "false"), ("b", "1"), ("a", "2")])
    let b := greeter (some []) (.ofList [("a", "2"), ("b", "1")])
    a.toClassOutline.Marked ∧ b.toClassOutline.Marked ∧ a.document {} = b.document {} ∧
      a.name = b.name ∧ (("a", "2") ∈ a.directives.entries ↔ ("a", "2") ∈ b.directives.entries) := by
  intro a b
  have marked : a.toClassOutline.Marked :=
    ⟨rfl, by decide, by decide, by decide, by decide, by decide⟩
  have marked' : b.toClassOutline.Marked :=
    ⟨rfl, by decide, by decide, by decide, by decide, by decide⟩
  have comments : Code.Preamble.commentsFor a.toClassOutline {} =
      Code.Preamble.commentsFor b.toClassOutline {} := by decide
  have same : a.document {} = b.document {} := by
    unfold ClassSpec.document ClassSpec.fragments Code.Preamble.ofClass
    rw [comments]
    rfl
  have equal := ClassSpec.eq_of_document_eq a b {} marked marked' same
  exact ⟨marked, marked', same, equal.1, equal.2.2.2.2.2.2.2.2 "a" "2" (by decide)⟩

end RubyScaffold
