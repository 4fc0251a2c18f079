import RubyScaffold.Proofs.Naming.Separators

/-!
Names in camel case. The words of such a name, capitalised ones and acronyms, are found again in
snake case, and what is in snake case already stays as it is.
-/

set_option autoImplicit false

namespace RubyScaffold.Naming

open Unicode

/-- Whether a word is a capital with a small letter behind it, and perhaps more small letters and
digits. -/
def IsCapitalised : List Char → Prop
  | capital :: small :: rest =>
    capital.isUpper = true ∧ isLowercase small = true ∧
      ∀ c ∈ rest, c.isLower = true ∨ c.isDigit = true
  | _ => False

def IsAcronym (word : List Char) : Prop :=
  word ≠ [] ∧ ∀ c ∈ word, c.isUpper = true

instance : DecidablePred IsCapitalised
  | [] | [_] => .isFalse id
  | capital :: small :: rest =>
    decidable_of_iff
      (capital.isUpper ∧ isLowercase small ∧ rest.all fun c => c.isLower || c.isDigit)
      (by simp [IsCapitalised])

instance (word : List Char) : Decidable (IsAcronym word) :=
  decidable_of_iff (word ≠ [] ∧ word.all Char.isUpper) (by simp [IsAcronym])

def IsWord (word : List Char) : Prop :=
  IsCapitalised word ∨ IsAcronym word

private theorem IsCapitalised.exists_eq {word : List Char} (capitalised : IsCapitalised word) :
    ∃ capital small rest, word = capital :: small :: rest ∧ capital.isUpper = true ∧
      isLowercase small = true ∧ ∀ c ∈ rest, c.isLower = true ∨ c.isDigit = true := by
  unfold IsCapitalised at capitalised
  split at capitalised
  · next capital small rest => exact ⟨capital, small, rest, rfl, capitalised⟩
  · exact capitalised.elim

variable {before : Char} {cs word : List Char}

private theorem snakeTail_of_lowered (lowered : ∀ c ∈ cs, IsLowered c) :
    snakeTail before cs = cs := by
  induction cs generalizing before with
  | nil => rfl
  | cons c rest ih =>
    obtain ⟨capital, own⟩ := lowered c List.mem_cons_self
    rw [snakeTail, ih fun d mem => lowered d (List.mem_cons_of_mem _ mem), own]
    simp [startsWord, capital]

private theorem snakeChars_of_lowered (lowered : ∀ c ∈ cs, IsLowered c) : snakeChars cs = cs := by
  cases cs with
  | nil => rfl
  | cons c rest =>
    rw [snakeChars, (lowered c List.mem_cons_self).2,
      snakeTail_of_lowered fun d mem => lowered d (List.mem_cons_of_mem _ mem)]
    rfl

private theorem snakeTail_of_capitals (capital : before.isUpper = true)
    (capitals : ∀ c ∈ cs, c.isUpper = true) : snakeTail before cs = cs.map Char.toLower := by
  induction cs generalizing before with
  | nil => rfl
  | cons c rest ih =>
    have own := capitals c List.mem_cons_self
    have later : ∀ d ∈ rest, d.isUpper = true := fun d mem =>
      capitals d (List.mem_cons_of_mem _ mem)
    have next : rest.head?.any isLowercase = false := by
      cases rest with
      | nil => rfl
      | cons d rest => exact isLowercase_of_isUpper (later d List.mem_cons_self)
    have inside : startsWord before c rest.head? = false := by
      simp [startsWord, isLowercase_of_isUpper capital, isDigit_of_isUpper capital, next]
    rw [snakeTail, inside, lowering_of_isUpper own, ih own later]
    rfl

private theorem snakeChars_of_isWord (isWord : IsWord word) :
    snakeChars word = word.map Char.toLower := by
  rcases isWord with capitalised | ⟨some, capitals⟩
  · obtain ⟨capital, small, rest, rfl, isCapital, isSmall, others⟩ := capitalised.exists_eq
    have lowered : ∀ c ∈ small :: rest, IsLowered c := by
      simpa using ⟨isLowered_of_isLowercase isSmall, fun c mem => (others c mem).elim
        (fun letter => isLowered_of_isLowercase (isLowercase_of_isLower letter))
        isLowered_of_isDigit⟩
    have same : (small :: rest).map Char.toLower = small :: rest :=
      (List.map_congr_left fun c mem => (lowered c mem).toLower).trans (List.map_id _)
    rw [snakeChars, lowering_of_isUpper isCapital, snakeTail_of_lowered lowered, List.map_cons,
      same]
    rfl
  · obtain ⟨c, rest, rfl⟩ := List.exists_cons_of_ne_nil some
    have own := capitals c List.mem_cons_self
    rw [snakeChars, lowering_of_isUpper own,
      snakeTail_of_capitals own fun d mem => capitals d (List.mem_cons_of_mem _ mem)]
    rfl

private theorem IsWord.exists_cons (isWord : IsWord word) :
    ∃ capital rest, word = capital :: rest ∧ capital.isUpper = true := by
  rcases isWord with capitalised | ⟨some, capitals⟩
  · obtain ⟨capital, small, rest, rfl, isCapital, -⟩ := capitalised.exists_eq
    exact ⟨capital, small :: rest, rfl, isCapital⟩
  · obtain ⟨c, rest, rfl⟩ := List.exists_cons_of_ne_nil some
    exact ⟨c, rest, rfl, capitals c List.mem_cons_self⟩

private theorem IsCapitalised.last {last : Char} (capitalised : IsCapitalised word)
    (ends : word.getLast? = some last) : isLowercase last = true ∨ last.isDigit = true := by
  obtain ⟨capital, small, rest, rfl, -, isSmall, others⟩ := capitalised.exists_eq
  rw [List.getLast?_cons_cons] at ends
  rcases List.mem_cons.mp (List.mem_of_getLast? ends) with rfl | mem
  · exact .inl isSmall
  · exact (others last mem).imp_left isLowercase_of_isLower

/-- Between two words that are not both acronyms a word starts. -/
private theorem startsWord_of_isWord {last c : Char} {rest more : List Char} (isWord : IsWord word)
    (ends : word.getLast? = some last) (next : IsWord (c :: rest))
    (apart : ¬ (IsAcronym word ∧ IsAcronym (c :: rest))) :
    startsWord last c (rest ++ more).head? = true := by
  obtain ⟨capital, _, same, isCapital⟩ := next.exists_cons
  obtain ⟨rfl, -⟩ := List.cons.inj same
  rcases isWord with capitalised | acronym
  · rcases capitalised.last ends with small | digit
    · simp [startsWord, isUppercase_of_isUpper isCapital, small]
    · simp [startsWord, isUppercase_of_isUpper isCapital, digit]
  · -- the last capital of an acronym starts no word, but the small letter behind the next one does
    have run : isUppercase last = true :=
      isUppercase_of_isUpper (acronym.2 last (List.mem_of_getLast? ends))
    obtain ⟨_, small, _, same, -, isSmall, -⟩ :=
      (next.resolve_right fun other => apart ⟨acronym, other⟩).exists_eq
    obtain ⟨-, rfl⟩ := List.cons.inj same
    simp [startsWord, isUppercase_of_isUpper isCapital, run, isSmall]

private theorem head_flatten_of_isWord {words : List (List Char)} (each : ∀ w ∈ words, IsWord w) :
    words.flatten.head?.any isLowercase = false := by
  cases words with
  | nil => rfl
  | cons w words =>
    obtain ⟨capital, rest, rfl, isCapital⟩ := (each w List.mem_cons_self).exists_cons
    exact isLowercase_of_isUpper isCapital

private theorem snakeTail_of_startsWord {c : Char} {rest : List Char}
    (starts : startsWord before c rest.head? = true) :
    snakeTail before (c :: rest) = '_' :: snakeChars (c :: rest) := by
  rw [snakeTail, starts, snakeChars]
  rfl

private theorem snakeChars_append_flatten {words : List (List Char)} {last : Char}
    (isWord : IsWord word) (each : ∀ w ∈ words, IsWord w) (ends : word.getLast? = some last) :
    snakeChars (word ++ words.flatten) =
      word.map Char.toLower ++ snakeTail last words.flatten := by
  obtain ⟨capital, rest, rfl, -⟩ := isWord.exists_cons
  have final : rest.getLastD capital = last := by
    rwa [List.getLast?_cons, Option.some_inj, ← List.getLastD_eq_getLast?] at ends
  rw [List.cons_append, snakeChars, snakeTail_append (head_flatten_of_isWord each), final,
    ← List.append_assoc, ← snakeChars, snakeChars_of_isWord isWord]

private theorem snakeTail_flatten {words : List (List Char)} {last : Char} (isWord : IsWord word)
    (each : ∀ w ∈ words, IsWord w) (ends : word.getLast? = some last)
    (apart : (word :: words).IsChain fun v w => ¬ (IsAcronym v ∧ IsAcronym w)) :
    snakeTail last words.flatten = words.flatMap fun w => '_' :: w.map Char.toLower := by
  induction words generalizing word last with
  | nil => rfl
  | cons w words ih =>
    have own := each w List.mem_cons_self
    have others : ∀ v ∈ words, IsWord v := fun v mem => each v (List.mem_cons_of_mem _ mem)
    obtain ⟨boundary, chain⟩ := List.isChain_cons_cons.mp apart
    obtain ⟨capital, rest, rfl, -⟩ := own.exists_cons
    have starts : startsWord last capital (rest ++ words.flatten).head? = true :=
      startsWord_of_isWord isWord ends own boundary
    rw [List.flatten_cons, List.cons_append, snakeTail_of_startsWord starts, ← List.cons_append,
      snakeChars_append_flatten own others List.getLast?_cons,
      ih own others List.getLast?_cons chain]
    rfl

/-- The words of a name in camel case are lowered and joined by underscores. -/
private theorem snakeChars_flatten {words : List (List Char)} (each : ∀ w ∈ words, IsWord w)
    (apart : words.IsChain fun v w => ¬ (IsAcronym v ∧ IsAcronym w)) :
    snakeChars words.flatten = ['_'].intercalate (words.map (List.map Char.toLower)) := by
  cases words with
  | nil => rfl
  | cons w words =>
    have own := each w List.mem_cons_self
    have others : ∀ v ∈ words, IsWord v := fun v mem => each v (List.mem_cons_of_mem _ mem)
    obtain ⟨capital, rest, rfl, -⟩ := own.exists_cons
    rw [List.flatten_cons, snakeChars_append_flatten own others List.getLast?_cons,
      snakeTail_flatten own others List.getLast?_cons apart, List.map_cons (l := words),
      Text.intercalate_cons_eq_append, List.flatMap_map]

private theorem IsWord.inWord (isWord : IsWord word) : ∀ c ∈ word, InWord c := by
  rcases isWord with capitalised | ⟨-, capitals⟩
  · obtain ⟨capital, small, rest, rfl, isCapital, isSmall, others⟩ := capitalised.exists_eq
    simpa using ⟨.inr (.inr (isUppercase_of_isUpper isCapital)), .inl isSmall, fun c mem =>
      (others c mem).elim (fun letter => .inl (isLowercase_of_isLower letter))
        fun digit => .inr (.inl digit)⟩
  · exact fun c mem => .inr (.inr (isUppercase_of_isUpper (capitals c mem)))

private theorem snakeList_flatten {words : List (List Char)} (each : ∀ w ∈ words, IsWord w)
    (apart : words.IsChain fun v w => ¬ (IsAcronym v ∧ IsAcronym w)) :
    snakeList words.flatten = ['_'].intercalate (words.map (List.map Char.toLower)) := by
  have free : '-' ∉ snakeChars words.flatten := by
    intro mem
    rcases mem_snakeChars mem with line | ⟨c, there, own⟩
    · exact absurd line (by decide)
    · obtain ⟨w, memW, inside⟩ := List.mem_flatten.mp there
      rw [mem_lowering_mark (by decide)] at own
      exact not_isSeparator_of_inWord ((each w memW).inWord c inside) (.inr own)
  rw [snakeList, map_underscored_of_free free, snakeChars_flatten each apart]

private theorem isLowered_of_mem_snakeList (ascii : ∀ c ∈ cs, c.toNat < 0x80) :
    ∀ x ∈ snakeList cs, IsLowered x := by
  have line : IsLowered '_' := isLowered_of_ascii (by decide) (by decide)
  intro x mem
  obtain ⟨y, inside, rfl⟩ := List.mem_map.mp mem
  rw [underscored]
  split
  · exact line
  · rcases mem_snakeChars inside with rfl | ⟨c, there, own⟩
    · exact line
    · rw [lowering_of_ascii (ascii c there), List.mem_singleton] at own
      rw [own]
      exact isLowered_of_ascii (toNat_toLower_lt (ascii c there)) (Char.isUpper_toLower_eq_false c)

private theorem snakeList_snakeList (ascii : ∀ c ∈ cs, c.toNat < 0x80) :
    snakeList (snakeList cs) = snakeList cs := by
  rw [snakeList, snakeChars_of_lowered (isLowered_of_mem_snakeList ascii),
    map_underscored_of_free (hyphen_not_mem_snakeList cs)]

/-- A name in camel case, made of capitalised words and acronyms with no acronym directly behind
another one, has in snake case the same words, lowered and joined by underscores. A name in ASCII
that is in snake case already stays as it is. -/
theorem snakeCase_camelCase :
    (∀ words : List String, (∀ w ∈ words, IsCapitalised w.toList ∨ IsAcronym w.toList) →
      words.IsChain (fun v w => ¬ (IsAcronym v.toList ∧ IsAcronym w.toList)) →
      snakeCase (String.join words) = String.intercalate "_" (words.map String.toLower)) ∧
    ∀ s : String, (∀ c ∈ s.toList, c.toNat < 0x80) → snakeCase (snakeCase s) = snakeCase s := by
  constructor
  · intro words each apart
    apply String.toList_injective
    have whole : snakeList (words.map String.toList).flatten =
        ['_'].intercalate ((words.map String.toList).map (List.map Char.toLower)) :=
      snakeList_flatten (List.forall_mem_map.mpr each) ((List.isChain_map _).mpr apart)
    rw [toList_snakeCase, String.toList_join, List.flatMap_def, whole]
    simp [String.toLower, String.toList_map, Function.comp_def]
  · intro s ascii
    apply String.toList_injective
    rw [toList_snakeCase, toList_snakeCase, snakeList_snakeList ascii]

def clientWords : List String :=
  ["HTTP", "Client2", "V", "Né"]

theorem snakeCase_camelCase_client :
    (∀ w ∈ clientWords, IsCapitalised w.toList ∨ IsAcronym w.toList) ∧
      clientWords.IsChain (fun v w => ¬ (IsAcronym v.toList ∧ IsAcronym w.toList)) ∧
      snakeCase (String.join clientWords) = "http_client2_v_né" ∧
      snakeCase (snakeCase "HTTP-Client_2V") = snakeCase "HTTP-Client_2V" := by
  have each : ∀ w ∈ clientWords, IsCapitalised w.toList ∨ IsAcronym w.toList := by decide +kernel
  have apart : clientWords.IsChain fun v w => ¬ (IsAcronym v.toList ∧ IsAcronym w.toList) := by
    decide +kernel
  have words : String.intercalate "_" (clientWords.map String.toLower) = "http_client2_v_né" := by
    decide +kernel
  obtain ⟨joined, settled⟩ := snakeCase_camelCase
  exact ⟨each, apart, (joined clientWords each apart).trans words, settled _ (by simp)⟩

end RubyScaffold.Naming
