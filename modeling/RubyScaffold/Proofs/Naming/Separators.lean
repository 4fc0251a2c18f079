import RubyScaffold.Proofs.Naming.FilePath

/-!
What snake case does to a name, place by place. It lowers each character where it stands, writes
the separators of the name as underscores and puts more underscores in, each of them between a
character and a capital.
-/

set_option autoImplicit false

namespace RubyScaffold.Naming

open Unicode

def IsSeparator (c : Char) : Prop :=
  c = '_' ∨ c = '-'

instance (c : Char) : Decidable (IsSeparator c) :=
  inferInstanceAs (Decidable (_ ∨ _))

theorem map_underscored_of_free {cs : List Char} (free : '-' ∉ cs) : cs.map underscored = cs := by
  refine (List.map_congr_left fun c mem => ?_).trans (List.map_id cs)
  exact if_neg fun same : c = '-' => free (same ▸ mem)

/-- A place of a name in snake case: a character of the name, and whether an underscore is put in
before it. -/
structure Place where
  letter : Char
  parted : Bool

namespace Place

def shown (p : Place) : List Char :=
  (lowering p.letter).map underscored

def text (p : Place) : List Char :=
  if p.parted then '_' :: p.shown else p.shown

variable {p : Place}

private theorem shown_of_separator (separator : IsSeparator p.letter) : p.shown = ['_'] := by
  rcases separator with line | hyphen
  · rw [shown, line]
    decide
  · rw [shown, hyphen]
    decide

private theorem hyphen_not_mem_shown : '-' ∉ p.shown := by
  intro mem
  obtain ⟨x, -, same⟩ := List.mem_map.mp mem
  unfold underscored at same
  split at same
  · exact absurd same (by decide)
  · contradiction

private theorem shown_of_not_separator (other : ¬ IsSeparator p.letter) :
    p.shown = lowering p.letter ∧ '_' ∉ p.shown := by
  have hyphenFree : '-' ∉ lowering p.letter := by
    rw [mem_lowering_mark (by decide)]
    exact fun same => other (.inr same)
  have lineFree : '_' ∉ lowering p.letter := by
    rw [mem_lowering_mark (by decide)]
    exact fun same => other (.inl same)
  have own : p.shown = lowering p.letter := map_underscored_of_free hyphenFree
  exact ⟨own, own ▸ lineFree⟩

private theorem shown_ne_nil : p.shown ≠ [] := by
  simpa [shown] using lowering_ne_nil p.letter

end Place

def placesAfter : Char → List Char → List Place
  | _, [] => []
  | before, c :: rest => ⟨c, startsWord before c rest.head?⟩ :: placesAfter c rest

def places : List Char → List Place
  | [] => []
  | c :: rest => ⟨c, false⟩ :: placesAfter c rest

private theorem letters_placesAfter (before : Char) (cs : List Char) :
    (placesAfter before cs).map Place.letter = cs := by
  induction cs generalizing before with
  | nil => rfl
  | cons c rest ih => rw [placesAfter, List.map_cons, ih]

private theorem letters_places (cs : List Char) : (places cs).map Place.letter = cs := by
  cases cs with
  | nil => rfl
  | cons c rest => rw [places, List.map_cons, letters_placesAfter]

private theorem text_placesAfter (before : Char) (cs : List Char) :
    (placesAfter before cs).flatMap Place.text = (snakeTail before cs).map underscored := by
  induction cs generalizing before with
  | nil => rfl
  | cons c rest ih =>
    have line : underscored '_' = '_' := by decide
    rw [placesAfter, List.flatMap_cons, ih, snakeTail, List.map_append, List.map_append]
    by_cases starts : startsWord before c rest.head?
    · simp [Place.text, Place.shown, starts, line]
    · simp [Place.text, Place.shown, starts]

private theorem text_places (cs : List Char) : (places cs).flatMap Place.text = snakeList cs := by
  cases cs with
  | nil => rfl
  | cons c rest => simp [places, snakeList, snakeChars, text_placesAfter, Place.text, Place.shown]

/-- Whether a character is a letter with a case or a digit: a new word can start behind it. -/
def InWord (c : Char) : Prop :=
  isLowercase c = true ∨ c.isDigit = true ∨ isUppercase c = true

theorem not_isSeparator_of_inWord {c : Char} (ends : InWord c) : ¬ IsSeparator c := by
  rintro (rfl | rfl)
  all_goals
    revert ends
    unfold InWord
    decide +kernel

private theorem not_isSeparator_of_isUppercase {c : Char} (capital : isUppercase c = true) :
    ¬ IsSeparator c :=
  not_isSeparator_of_inWord (.inr (.inr capital))

private theorem startsWord_eq_true {before c : Char} {after : Option Char}
    (starts : startsWord before c after = true) : InWord before ∧ isUppercase c = true := by
  simp only [startsWord, Bool.and_eq_true, Bool.or_eq_true] at starts
  obtain ⟨capital, (small | digit) | ⟨run, -⟩⟩ := starts
  · exact ⟨.inl small, capital⟩
  · exact ⟨.inr (.inl digit), capital⟩
  · exact ⟨.inr (.inr run), capital⟩

/-- An underscore is put in behind a character of a word and before a capital. -/
def Parts (p q : Place) : Prop :=
  q.parted = true → InWord p.letter ∧ isUppercase q.letter = true

private theorem isChain_placesAfter (first : Place) (cs : List Char) :
    (first :: placesAfter first.letter cs).IsChain Parts := by
  induction cs generalizing first with
  | nil => exact .singleton first
  | cons c rest ih =>
    rw [placesAfter, List.isChain_cons_cons]
    exact ⟨startsWord_eq_true, ih _⟩

private theorem isChain_places (cs : List Char) : (places cs).IsChain Parts := by
  cases cs with
  | nil => exact .nil
  | cons c rest => exact isChain_placesAfter ⟨c, false⟩ rest

private theorem parted_places {cs : List Char} {before after : List Place} {p : Place}
    (split : places cs = before ++ p :: after) (parted : p.parted = true) :
    isUppercase p.letter = true ∧ ∃ others q, before = others ++ [q] ∧ InWord q.letter := by
  cases before using List.reverseRecOn with
  | nil =>
    -- nothing is put in before the first character
    cases cs with
    | nil => cases split
    | cons c rest =>
      obtain ⟨rfl, -⟩ := List.cons.inj split
      cases parted
  | append_singleton others q =>
    have chain := isChain_places cs
    rw [split, List.isChain_append] at chain
    obtain ⟨ends, capital⟩ := chain.2.2 q (by simp) p rfl parted
    exact ⟨capital, others, q, rfl, ends⟩

private theorem exists_part_of_flatMap {α β : Type} {f : α → List β} {parts : List α}
    {front back : List β} {x : β} (split : parts.flatMap f = front ++ x :: back) :
    ∃ before part after lead trail, parts = before ++ part :: after ∧ f part = lead ++ x :: trail ∧
      front = before.flatMap f ++ lead ∧ back = trail ++ after.flatMap f := by
  induction parts generalizing front with
  | nil => simp at split
  | cons part parts ih =>
    have later : ∀ rest, front = f part ++ rest → parts.flatMap f = rest ++ x :: back →
        ∃ before own after lead trail, part :: parts = before ++ own :: after ∧
          f own = lead ++ x :: trail ∧ front = before.flatMap f ++ lead ∧
          back = trail ++ after.flatMap f := by
      rintro rest rfl others
      obtain ⟨before, own, after, lead, trail, rfl, inside, rfl, rfl⟩ := ih others
      exact ⟨part :: before, own, after, lead, trail, rfl, inside, by simp, rfl⟩
    rw [List.flatMap_cons] at split
    rcases List.append_eq_append_iff.mp split with ⟨rest, whole, others⟩ | ⟨rest, whole, others⟩
    · exact later rest whole others
    · cases rest with
      | nil => exact later [] (by simpa using whole.symm) (by simpa using others.symm)
      | cons y trail =>
        obtain ⟨rfl, rfl⟩ := List.cons.inj others
        exact ⟨[], part, parts, front, trail, rfl, whole, rfl, rfl⟩

private theorem Place.underscore_cases {p : Place} {lead trail : List Char}
    (capital : p.parted = true → isUppercase p.letter = true)
    (split : p.text = lead ++ '_' :: trail) :
    lead = [] ∧ ((IsSeparator p.letter ∧ p.parted = false ∧ trail = []) ∨
      (p.parted = true ∧ trail = p.shown)) := by
  by_cases separator : IsSeparator p.letter
  · have plain : p.parted = false := by
      rw [Bool.eq_false_iff]
      exact fun parted => not_isSeparator_of_isUppercase (capital parted) separator
    rw [text, plain, if_neg (by simp), shown_of_separator separator] at split
    cases lead with
    | nil => exact ⟨rfl, .inl ⟨separator, plain, (List.cons.inj split).2.symm⟩⟩
    | cons x lead => simp at split
  · have free := (shown_of_not_separator separator).2
    rw [text] at split
    split at split
    · next parted =>
      cases lead with
      | nil => exact ⟨rfl, .inr ⟨parted, (List.cons.inj split).2.symm⟩⟩
      | cons x lead => exact absurd (by simp [(List.cons.inj split).2]) free
    · exact absurd (by simp [split]) free

theorem hyphen_not_mem_snakeList (cs : List Char) : '-' ∉ snakeList cs := by
  rw [← text_places, List.mem_flatMap]
  rintro ⟨p, -, mem⟩
  rw [Place.text] at mem
  split at mem
  · exact Place.hyphen_not_mem_shown (List.mem_of_ne_of_mem (by decide) mem)
  · exact Place.hyphen_not_mem_shown mem

private theorem Place.filter_text (p : Place) :
    p.text.filter (· ≠ '_') = if IsSeparator p.letter then [] else lowering p.letter := by
  have own : p.shown.filter (· ≠ '_') = if IsSeparator p.letter then [] else lowering p.letter := by
    split
    · next separator => rw [shown_of_separator separator]; rfl
    · next other =>
      obtain ⟨same, free⟩ := shown_of_not_separator other
      rw [← same, List.filter_eq_self]
      exact fun x mem => by simpa using fun line : x = '_' => free (line ▸ mem)
  rw [text]
  split
  · rw [List.filter_cons_of_neg (by simp), own]
  · exact own

/-- Without underscores a name in snake case is the name without its separators, each character
lowered where it stands. -/
private theorem filter_snakeList (cs : List Char) : (snakeList cs).filter (· ≠ '_') =
    (cs.filter fun c => ¬ IsSeparator c).flatMap lowering := by
  calc (snakeList cs).filter (· ≠ '_')
      = (places cs).flatMap fun p => if IsSeparator p.letter then [] else lowering p.letter := by
        rw [← text_places, List.filter_flatMap]
        exact List.flatMap_congr fun p _ => p.filter_text
    _ = ((places cs).map Place.letter).flatMap fun c =>
          if IsSeparator c then [] else lowering c := by
        rw [List.flatMap_map]
    _ = (cs.filter fun c => ¬ IsSeparator c).flatMap lowering := by
        rw [letters_places]
        induction cs with
        | nil => rfl
        | cons c cs ih =>
          rw [List.flatMap_cons, ih, List.filter_cons]
          by_cases separator : IsSeparator c <;> simp [separator]

private theorem exists_last_of_inWord (others : List Place) {q : Place} (ends : InWord q.letter) :
    ∃ x ∈ ((others ++ [q]).flatMap Place.text).getLast?, x ≠ '_' := by
  obtain ⟨x, last⟩ := Option.ne_none_iff_exists'.mp
    (List.getLast?_eq_none_iff.not.mpr (Place.shown_ne_nil (p := q)))
  have free := (Place.shown_of_not_separator (not_isSeparator_of_inWord ends)).2
  have own : x ∈ q.text.getLast? := by
    rw [Place.text]
    split
    · rw [List.getLast?_cons, last]
      rfl
    · exact last
  refine ⟨x, ?_, fun line => free (line ▸ List.mem_of_getLast? last)⟩
  rw [List.flatMap_append, List.flatMap_singleton, List.getLast?_append, Option.mem_def.mp own]
  rfl

/-- Each underscore in a name in snake case is a separator of the name, or it is put in between a
character of a word and a capital. -/
private theorem underscore_cases {cs front back : List Char}
    (split : snakeList cs = front ++ '_' :: back) :
    ∃ before p after, places cs = before ++ p :: after ∧ front = before.flatMap Place.text ∧
      ((IsSeparator p.letter ∧ p.parted = false ∧ back = after.flatMap Place.text) ∨
        (p.parted = true ∧ isUppercase p.letter = true ∧ before ≠ [] ∧
          back = lowering p.letter ++ after.flatMap Place.text ∧
          ∃ x ∈ front.getLast?, x ≠ '_')) := by
  rw [← text_places] at split
  obtain ⟨before, p, after, lead, trail, parts, own, rfl, rfl⟩ := exists_part_of_flatMap split
  have put := parted_places parts
  obtain ⟨rfl, kind⟩ := p.underscore_cases (fun parted => (put parted).1) own
  refine ⟨before, p, after, parts, List.append_nil _, ?_⟩
  rcases kind with ⟨separator, plain, rfl⟩ | ⟨parted, rfl⟩
  · exact .inl ⟨separator, plain, rfl⟩
  · obtain ⟨capital, others, q, rfl, ends⟩ := put parted
    have shown := (Place.shown_of_not_separator (not_isSeparator_of_isUppercase capital)).1
    refine .inr ⟨parted, capital, by simp, by rw [shown], ?_⟩
    rw [List.append_nil]
    exact exists_last_of_inWord others ends

private theorem underscores_apart {cs : List Char} (plain : ∀ c ∈ cs, ¬ IsSeparator c) :
    (snakeList cs).head? ≠ some '_' ∧ (snakeList cs).getLast? ≠ some '_' ∧
      ¬ ['_', '_'] <:+: snakeList cs := by
  have between : ∀ front back, snakeList cs = front ++ '_' :: back →
      (∃ x ∈ front.getLast?, x ≠ '_') ∧ back ≠ [] := by
    intro front back split
    obtain ⟨before, p, after, parts, -, ⟨separator, -, -⟩ | ⟨-, -, -, rfl, last⟩⟩ :=
      underscore_cases split
    · have letter : p.letter ∈ (places cs).map Place.letter := List.mem_map_of_mem (by simp [parts])
      exact absurd separator (plain _ (letters_places cs ▸ letter))
    · exact ⟨last, by simp [lowering_ne_nil]⟩
  refine ⟨fun first => ?_, fun last => ?_, ?_⟩
  · obtain ⟨back, split⟩ := List.head?_eq_some_iff.mp first
    simpa using (between [] back split).1
  · obtain ⟨front, split⟩ := List.getLast?_eq_some_iff.mp last
    exact (between front [] split).2 rfl
  · rintro ⟨front, back, split⟩
    simpa using (between (front ++ ['_']) back (by simp [← split])).1

/-- Snake case only separates. There is no hyphen in it, and without underscores it is the name
without its separators, each character lowered where it stands. Each underscore either is a
separator of the name, or is put in directly behind a character that is no underscore and directly
before the lower-case form of a capital that is not the first character. So a name without
separators gets no underscore at an end and no two together. -/
theorem snakeCase_only_separates (s : String) :
    '-' ∉ (snakeCase s).toList ∧
    (snakeCase s).toList.filter (· ≠ '_') =
      (s.toList.filter fun c => ¬ IsSeparator c).flatMap lowering ∧
    (∃ places : List Place, places.map Place.letter = s.toList ∧
      places.flatMap Place.text = (snakeCase s).toList ∧
      ∀ front back, (snakeCase s).toList = front ++ '_' :: back →
        ∃ before p after, places = before ++ p :: after ∧ front = before.flatMap Place.text ∧
          ((IsSeparator p.letter ∧ p.parted = false ∧ back = after.flatMap Place.text) ∨
            (p.parted = true ∧ isUppercase p.letter = true ∧ before ≠ [] ∧
              back = lowering p.letter ++ after.flatMap Place.text ∧
              ∃ x ∈ front.getLast?, x ≠ '_'))) ∧
    ((∀ c ∈ s.toList, ¬ IsSeparator c) →
      (snakeCase s).toList.head? ≠ some '_' ∧ (snakeCase s).toList.getLast? ≠ some '_' ∧
        ¬ ['_', '_'] <:+: (snakeCase s).toList) := by
  rw [toList_snakeCase]
  exact ⟨hyphen_not_mem_snakeList _, filter_snakeList _,
    ⟨places s.toList, letters_places _, text_places _, fun _ _ => underscore_cases⟩,
    underscores_apart⟩

/-- The underscore before the second word of a name stands before a capital of the name. -/
theorem snakeCase_only_separates_client :
    (∀ c ∈ "HTTPClientV2".toList, ¬ IsSeparator c) ∧
    (snakeCase "HTTPClientV2").toList = "http".toList ++ '_' :: "client_v2".toList ∧
    (∃ before c after, "HTTPClientV2".toList = before ++ c :: after ∧ before ≠ [] ∧
      isUppercase c = true) ∧
    ¬ ['_', '_'] <:+: (snakeCase "HTTPClientV2").toList := by
  have plain : ∀ c ∈ "HTTPClientV2".toList, ¬ IsSeparator c := by simp [IsSeparator]
  have split : (snakeCase "HTTPClientV2").toList = "http".toList ++ '_' :: "client_v2".toList := by
    decide +kernel
  obtain ⟨-, -, ⟨places, letters, -, cases⟩, apart⟩ := snakeCase_only_separates "HTTPClientV2"
  obtain ⟨before, p, after, rfl, -, ⟨separator, -, -⟩ | ⟨-, capital, inside, -, -⟩⟩ :=
    cases "http".toList "client_v2".toList split
  · have letter : p.letter ∈ (before ++ p :: after).map Place.letter :=
      List.mem_map_of_mem (by simp)
    exact absurd separator (plain _ (letters ▸ letter))
  · rw [List.map_append, List.map_cons] at letters
    exact ⟨plain, split, ⟨_, _, _, letters.symm, by simpa using inside, capital⟩, (apart plain).2.2⟩

end RubyScaffold.Naming
