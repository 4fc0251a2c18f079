import RubyScaffold.Proofs.Text.Joins
import RubyScaffold.Text.NameSpan

/-!
Where texts stand in other texts, counted in bytes, and what the search for a name finds: its first
place between the likeliest marks that stand around it anywhere.
-/

set_option autoImplicit false

namespace RubyScaffold.Text

@[simp] theorem byteLength_append (xs ys : List Char) :
    byteLength (xs ++ ys) = byteLength xs + byteLength ys := by
  induction xs with
  | nil => simp [byteLength]
  | cons x xs ih => simp only [List.cons_append, byteLength, ih]; omega

private theorem append_inj_of_byteLength {xs ys zs ws : List Char} (same : xs ++ zs = ys ++ ws)
    (measured : byteLength xs = byteLength ys) : xs = ys ∧ zs = ws := by
  induction xs generalizing ys with
  | nil =>
    cases ys with
    | nil => exact ⟨rfl, same⟩
    | cons y ys =>
      have some := Char.utf8Size_pos y
      simp only [byteLength] at measured
      omega
  | cons x xs ih =>
    cases ys with
    | nil =>
      have some := Char.utf8Size_pos x
      simp only [byteLength] at measured
      omega
    | cons y ys =>
      obtain ⟨rfl, tails⟩ := List.cons.inj same
      simp only [byteLength, Nat.add_left_cancel_iff] at measured
      obtain ⟨rfl, rest⟩ := ih tails measured
      exact ⟨rfl, rest⟩

/-- Whether some characters stand in a text behind a number of bytes. -/
def StandsAt (text : List Char) (offset : Nat) (found : List Char) : Prop :=
  ∃ before after, text = before ++ found ++ after ∧ byteLength before = offset

def FirstAt (text : List Char) (offset : Nat) (found : List Char) : Prop :=
  StandsAt text offset found ∧ ∀ other, StandsAt text other found → offset ≤ other

variable {text name needle : List Char}

theorem StandsAt.inside {offset : Nat} {lead trail : List Char}
    (stands : StandsAt text offset (lead ++ name ++ trail)) :
    StandsAt text (offset + byteLength lead) name := by
  obtain ⟨before, after, rfl, rfl⟩ := stands
  exact ⟨before ++ lead, trail ++ after, by simp, by simp⟩

theorem StandsAt.unique {offset : Nat} {xs ys : List Char} (first : StandsAt text offset xs)
    (second : StandsAt text offset ys) (measured : byteLength xs = byteLength ys) : xs = ys := by
  obtain ⟨before, after, rfl, rfl⟩ := first
  obtain ⟨before', after', split, same⟩ := second
  rw [List.append_assoc, List.append_assoc] at split
  obtain ⟨-, rest⟩ := append_inj_of_byteLength split same.symm
  exact (append_inj_of_byteLength rest measured).1

theorem standsAt_iff {offset : Nat} {found : List Char} :
    StandsAt text offset found ↔ ∃ n ∈ List.range (text.length + 1),
      byteLength (text.take n) = offset ∧ found.isPrefixOf (text.drop n) = true := by
  simp only [List.isPrefixOf_iff_prefix]
  constructor
  · rintro ⟨before, after, rfl, rfl⟩
    have inText : before.length < (before ++ found ++ after).length + 1 := by
      simp only [List.length_append]
      omega
    exact ⟨before.length, List.mem_range.mpr inText, by simp, by simp⟩
  · rintro ⟨n, -, rfl, after, rest⟩
    exact ⟨text.take n, after, by simp [rest], rfl⟩

instance (text : List Char) (offset : Nat) (found : List Char) :
    Decidable (StandsAt text offset found) :=
  decidable_of_iff _ standsAt_iff.symm

private theorem breakAt?_eq_some {front back : List Char}
    (found : breakAt? needle text = some (front, back)) : text = front ++ needle ++ back := by
  induction text generalizing front with
  | nil =>
    rw [breakAt?] at found
    split at found
    · next empty =>
      obtain ⟨rfl, rfl⟩ : front = [] ∧ back = [] := by simpa [eq_comm] using found
      simp [List.isEmpty_iff.mp empty]
    · cases found
  | cons c rest ih =>
    rw [breakAt?] at found
    split at found
    · next here =>
      cases found
      exact (List.prefix_iff_eq_append.mp (List.isPrefixOf_iff_prefix.mp here)).symm
    · obtain ⟨⟨later, behind⟩, broken, same⟩ := Option.map_eq_some_iff.mp found
      cases same
      rw [ih broken]
      rfl

private theorem exists_breakAt? {before after : List Char}
    (stands : text = before ++ needle ++ after) :
    ∃ front back, breakAt? needle text = some (front, back) ∧
      byteLength front ≤ byteLength before := by
  induction text generalizing before with
  | nil =>
    have empty : needle = [] := by simp_all
    exact ⟨[], [], by simp [breakAt?, empty], Nat.zero_le _⟩
  | cons c rest ih =>
    rw [breakAt?]
    by_cases here : needle.isPrefixOf (c :: rest)
    · rw [if_pos here]
      exact ⟨[], _, rfl, Nat.zero_le _⟩
    · rw [if_neg here]
      cases before with
      | nil => exact absurd (List.isPrefixOf_iff_prefix.mpr ⟨after, stands.symm⟩) here
      | cons b before =>
        obtain ⟨rfl, tails⟩ := List.cons.inj stands
        obtain ⟨front, back, found, first⟩ := ih tails
        refine ⟨c :: front, back, by rw [found]; rfl, ?_⟩
        simp only [byteLength]
        omega

private theorem find?_eq_some_iff {offset : Nat} :
    find? needle text = some offset ↔ FirstAt text offset needle := by
  have first : ∀ o, find? needle text = some o → FirstAt text o needle := by
    intro o found
    obtain ⟨⟨front, back⟩, broken, rfl⟩ := Option.map_eq_some_iff.mp found
    refine ⟨⟨front, back, breakAt?_eq_some broken, rfl⟩, ?_⟩
    rintro _ ⟨before, after, stands, rfl⟩
    obtain ⟨front', back', again, below⟩ := exists_breakAt? stands
    rw [broken] at again
    cases again
    exact below
  refine ⟨first offset, fun ⟨⟨before, after, stands, measured⟩, least⟩ => ?_⟩
  obtain ⟨front, back, broken, below⟩ := exists_breakAt? stands
  have found : find? needle text = some (byteLength front) := by rw [find?, broken]; rfl
  have above := least _ (first _ found).1
  rw [found]
  congr
  omega

private theorem find?_eq_none_iff :
    find? needle text = none ↔ ∀ offset, ¬ StandsAt text offset needle := by
  constructor
  · rintro absent offset ⟨before, after, stands, -⟩
    obtain ⟨front, back, broken, -⟩ := exists_breakAt? stands
    simp [find?, broken] at absent
  · intro absent
    rw [Option.eq_none_iff_forall_ne_some]
    intro offset found
    exact absent offset (find?_eq_some_iff.mp found).1

/-- The marks around a name where it is looked for, the likeliest first. -/
def nameMarks : List (List Char × List Char) :=
  [(['"'], ['"']), (['\''], ['\'']), ([], [' ', '=']), ([], ['=']), ([], [])]

/-- Whether a name stands at an offset of a text between marks, where no likelier marks stand
around it anywhere. -/
def LikelyAt (text name : List Char) (offset : Nat) : Prop :=
  ∃ likelier marks others, nameMarks = likelier ++ marks :: others ∧
    (∃ start, StandsAt text start (marks.1 ++ name ++ marks.2) ∧
      start + byteLength marks.1 = offset) ∧
    ∀ m ∈ likelier, ∀ o, ¬ StandsAt text o (m.1 ++ name ++ m.2)

theorem LikelyAt.standsAt {offset : Nat} (likely : LikelyAt text name offset) :
    StandsAt text offset name := by
  obtain ⟨_, marks, _, -, ⟨start, stands, rfl⟩, -⟩ := likely
  exact stands.inside

theorem likelyAt_iff {likelier others : List (List Char × List Char)}
    {marks : List Char × List Char}
    (split : nameMarks = likelier ++ marks :: others)
    (here : ∃ o, StandsAt text o (marks.1 ++ name ++ marks.2))
    (before : ∀ m ∈ likelier, ∀ o, ¬ StandsAt text o (m.1 ++ name ++ m.2)) (offset : Nat) :
    LikelyAt text name offset ↔
      ∃ start, StandsAt text start (marks.1 ++ name ++ marks.2) ∧
        start + byteLength marks.1 = offset := by
  constructor
  · rintro ⟨likelier', marks', others', split', there, before'⟩
    have somewhere : ∃ o, StandsAt text o (marks'.1 ++ name ++ marks'.2) :=
      there.imp fun _ => And.left
    obtain ⟨-, tails⟩ := append_inj_of_boundary
      (p := fun m : List Char × List Char => ∀ o, ¬ StandsAt text o (m.1 ++ name ++ m.2))
      before before' (by simpa using here) (by simpa using somewhere) (split.symm.trans split')
    obtain ⟨rfl, -⟩ := List.cons.inj tails
    exact there
  · intro there
    exact ⟨likelier, marks, others, split, there, before⟩

theorem likelyAt_iff_of_quoted {place : Nat} (quoted : StandsAt text place ('"' :: name ++ ['"']))
    (offset : Nat) : LikelyAt text name offset ↔
      ∃ start, StandsAt text start ('"' :: name ++ ['"']) ∧ start + 1 = offset :=
  likelyAt_iff rfl ⟨place, quoted⟩ (List.forall_mem_nil _) offset

private theorem nameOffset?_eq (name text : List Char) :
    nameOffset? name text = nameMarks.findSome? fun m =>
      (find? (m.1 ++ name ++ m.2) text).map (· + byteLength m.1) := by
  have quoted (q : Char) : findQuoted? q name text =
      (find? ([q] ++ name ++ [q]) text).map (· + byteLength [q]) := rfl
  have plain (trail : List Char) :
      (find? ([] ++ name ++ trail) text).map (· + byteLength []) = find? (name ++ trail) text := by
    simp [byteLength]
  simp only [nameMarks, List.findSome?_cons, List.findSome?_nil, ← quoted, plain, nameOffset?]
  rw [List.append_nil]
  cases findQuoted? '"' name text with
  | some => rfl
  | none =>
    cases findQuoted? '\'' name text with
    | some => rfl
    | none =>
      cases find? (name ++ [' ', '=']) text with
      | some => rfl
      | none => cases find? (name ++ ['=']) text <;> cases find? name text <;> rfl

private theorem nameOffset?_eq_none_iff :
    nameOffset? name text = none ↔ ∀ offset, ¬ StandsAt text offset name := by
  rw [nameOffset?_eq, List.findSome?_eq_none_iff]
  simp only [Option.map_eq_none_iff, find?_eq_none_iff]
  constructor
  · intro absent offset stands
    exact absent ([], []) (by simp [nameMarks]) offset (by simpa using stands)
  · intro absent marks _ offset stands
    exact absent _ stands.inside

/-- The search for a name finds the first of its likeliest places. -/
private theorem nameOffset?_eq_some_iff {offset : Nat} :
    nameOffset? name text = some offset ↔
      LikelyAt text name offset ∧ ∀ other, LikelyAt text name other → offset ≤ other := by
  have found : ∀ o, nameOffset? name text = some o →
      LikelyAt text name o ∧ ∀ other, LikelyAt text name other → o ≤ other := by
    intro o found
    rw [nameOffset?_eq, List.findSome?_eq_some_iff] at found
    obtain ⟨likelier, marks, others, split, here, before⟩ := found
    obtain ⟨start, first, rfl⟩ := Option.map_eq_some_iff.mp here
    obtain ⟨stands, least⟩ := find?_eq_some_iff.mp first
    simp only [Option.map_eq_none_iff, find?_eq_none_iff] at before
    have iff := likelyAt_iff split ⟨start, stands⟩ before
    refine ⟨(iff _).mpr ⟨start, stands, rfl⟩, fun other likely => ?_⟩
    obtain ⟨start', stands', rfl⟩ := (iff other).mp likely
    exact Nat.add_le_add_right (least start' stands') _
  refine ⟨found offset, fun ⟨likely, least⟩ => ?_⟩
  cases result : nameOffset? name text with
  | none => exact absurd likely.standsAt (nameOffset?_eq_none_iff.mp result offset)
  | some o =>
    obtain ⟨likely', least'⟩ := found o result
    rw [Nat.le_antisymm (least' offset likely) (least o likely')]

theorem nameSpan?_eq_none_iff {text name : String} :
    nameSpan? text name = none ↔ ∀ offset, ¬ StandsAt text.toList offset name.toList := by
  rw [nameSpan?, Option.map_eq_none_iff, nameOffset?_eq_none_iff]

theorem nameSpan?_eq_some_iff {text name : String} {offset length : Nat} :
    nameSpan? text name = some (offset, length) ↔ length = byteLength name.toList ∧
      LikelyAt text.toList name.toList offset ∧
        ∀ other, LikelyAt text.toList name.toList other → offset ≤ other := by
  simp only [nameSpan?, Option.map_eq_some_iff, nameOffset?_eq_some_iff, Prod.mk.injEq]
  constructor
  · rintro ⟨_, first, rfl, rfl⟩
    exact ⟨rfl, first⟩
  · rintro ⟨rfl, first⟩
    exact ⟨offset, first, rfl, rfl⟩

end RubyScaffold.Text
