import RubyScaffold.Proofs.Json.Steps

/-!
Reading JSON text that was written: the reader delivers every value that it is asked for in full,
with whatever stands behind it left to read.
-/

set_option autoImplicit false

namespace RubyScaffold.Json

open Text (Cursor)

mutual

/-- Whether a tree holds a value, wherever its parts stand. -/
def Value.HeldBy {π φ : Type} : Value → Tree π φ → Prop
  | .null, t => ∃ p, t = .null p
  | .bool b, t => ∃ p, t = .bool p b
  | .integer i, t => ∃ p, t = .integer p i
  | .float x, t => ∃ p, t = .float p x
  | .text s, t => ∃ p, t = .text p s
  | .list items, t => ∃ p found, t = .list p found none ∧ ItemsHeldBy items found
  | .table members, t => ∃ p found, t = .table p found none ∧ MembersHeldBy members found

def ItemsHeldBy {π φ : Type} : List Value → List (Tree π φ) → Prop
  | [], found => found = []
  | v :: rest, found => ∃ t others, found = t :: others ∧ v.HeldBy t ∧ ItemsHeldBy rest others

def MembersHeldBy {π φ : Type} : List (String × Value) → List (String × π × Tree π φ) → Prop
  | [], found => found = []
  | (key, v) :: rest, found =>
    ∃ p t others, found = (key, p, t) :: others ∧ v.HeldBy t ∧ MembersHeldBy rest others

end

mutual

/-- Whether a reader takes in all of a value, exactly, when it may go to a depth and is asked for
some parts. Binary numbers are left out. -/
def Value.Legible : Value → Nat → Interest → Prop
  | .null, _, asked => asked ≠ .nothing
  | .bool _, _, asked => asked ≠ .nothing
  | .integer i, _, asked =>
    asked ≠ .nothing ∧ -0x8000000000000000 ≤ i ∧ i < 0x10000000000000000
  | .float _, _, _ => False
  | .text _, _, asked => asked ≠ .nothing
  | .list items, depth, asked =>
    asked ≠ .nothing ∧ 0 < depth ∧ LegibleItems items (depth - 1) asked 0
  | .table members, depth, asked =>
    asked ≠ .nothing ∧ 0 < depth ∧ LegibleMembers members (depth - 1) asked

def LegibleItems : List Value → Nat → Interest → Nat → Prop
  | [], _, _, _ => True
  | v :: rest, depth, asked, n =>
    v.Legible depth (asked.item n) ∧ LegibleItems rest depth asked (n + 1)

def LegibleMembers : List (String × Value) → Nat → Interest → Prop
  | [], _, _ => True
  | (key, v) :: rest, depth, asked =>
    v.Legible depth (asked.member key) ∧ LegibleMembers rest depth asked

end

private theorem head_write (v : Value) {depth : Nat} {asked : Interest}
    (legible : v.Legible depth asked) :
    ∃ x more, (write v).toList = x :: more ∧ isSpace x = false ∧ x ≠ ']' := by
  cases v with
  | null => exact ⟨'n', _, rfl, by decide, by decide⟩
  | bool b => cases b <;> exact ⟨_, _, rfl, by decide, by decide⟩
  | integer i =>
    obtain ⟨x, more, head, leading⟩ := head_toString i
    refine ⟨x, more, head, isSpace_of_isNumeric (isNumeric_of_leading leading), ?_⟩
    rintro rfl
    exact absurd leading (by decide)
  | float x => exact legible.elim
  | text s => exact ⟨'"', _, toList_writeText s, by decide, by decide⟩
  | list vs => exact ⟨'[', _, toList_write_list vs, by decide, by decide⟩
  | table ms => exact ⟨'{', _, toList_write_table ms, by decide, by decide⟩

mutual

/-- A value is read back, and what stands behind it is left. -/
theorem value_write (v : Value) {depth : Nat} {asked : Interest}
    (legible : v.Legible depth asked) {rest : List Char} (ends : Ends rest) {fuel : Nat}
    (enough : 2 * ((write v).toList.length + rest.length) + 1 ≤ fuel) (i : Nat) :
    ∃ t after, value fuel depth asked ⟨(write v).toList ++ rest, i⟩ = (t, some after) ∧
      after.rest = rest ∧ v.HeldBy t := by
  obtain ⟨fuel, rfl⟩ : ∃ n, fuel = n + 1 := ⟨fuel - 1, by omega⟩
  cases v with
  | null =>
    obtain ⟨p, k, read⟩ := value_null legible fuel depth rest i
    exact ⟨_, _, read, rfl, p, rfl⟩
  | bool b =>
    cases b with
    | true =>
      obtain ⟨p, k, read⟩ := value_true legible fuel depth rest i
      exact ⟨_, _, read, rfl, p, rfl⟩
    | false =>
      obtain ⟨p, k, read⟩ := value_false legible fuel depth rest i
      exact ⟨_, _, read, rfl, p, rfl⟩
  | integer n =>
    obtain ⟨wanted, low, high⟩ := legible
    obtain ⟨after, read, behind⟩ := number_toString low high ends i
    obtain ⟨x, more, head, leading⟩ := head_toString n
    rw [head, List.cons_append] at read
    rw [write, head, List.cons_append, value_numeric wanted fuel depth _ i
      (isNumeric_of_leading leading), if_pos leading, read]
    exact ⟨_, after, rfl, behind, _, rfl⟩
  | float x => exact legible.elim
  | text s =>
    obtain ⟨after, read, behind⟩ := quoted_writeText s rest (i + Char.utf8Size '"')
    have text : (write (.text s)).toList ++ rest =
        '"' :: (s.toList.flatMap escapedChar ++ '"' :: rest) := by
      simp [write]
    rw [text, value_quote legible, read]
    exact ⟨_, after, rfl, behind, _, rfl⟩
  | list vs =>
    obtain ⟨wanted, room, legible⟩ := legible
    have text : (write (.list vs)).toList ++ rest =
        '[' :: (chained true (writeItems vs) ++ ']' :: rest) := by
      simp [toList_write_list]
    have enoughInside :
        2 * ((chained true (writeItems vs)).length + rest.length + 1) + 2 ≤ fuel := by
      simp only [toList_write_list, List.length_cons, List.length_append, List.length_nil] at enough
      omega
    obtain ⟨ts, after, read, behind, held⟩ :=
      items_write vs legible rest enoughInside (i + Char.utf8Size '[')
    rw [beq_self_eq_true] at read
    rw [text, value_list wanted fuel _ i room, read]
    exact ⟨_, after, rfl, behind, _, ts, rfl, held⟩
  | table ms =>
    obtain ⟨wanted, room, legible⟩ := legible
    have ends : Ends ('}' :: rest) := .inr (.inr rfl)
    obtain ⟨c, inside, k, enoughInside, table⟩ := value_writeTable ms wanted room rest enough i
    obtain ⟨found, left, j, enoughLeft, held, read⟩ :=
      members_write ms legible true ends enoughInside k
    obtain ⟨left, rfl⟩ : ∃ n, left = n + 1 := ⟨left - 1, by omega⟩
    rw [table, read, members_close, List.append_nil]
    exact ⟨_, _, rfl, rfl, _, found, rfl, held⟩

theorem items_write (vs : List Value) {depth : Nat} {asked : Interest} {n : Nat}
    (legible : LegibleItems vs depth asked n) (rest : List Char) {fuel : Nat}
    (enough : 2 * ((chained (n == 0) (writeItems vs)).length + rest.length + 1) + 2 ≤ fuel)
    (i : Nat) :
    ∃ ts after, items fuel depth asked n ⟨chained (n == 0) (writeItems vs) ++ ']' :: rest, i⟩ =
      (ts, .ok after) ∧ after.rest = rest ∧ ItemsHeldBy vs ts := by
  obtain ⟨fuel, rfl⟩ : ∃ n, fuel = n + 1 := ⟨fuel - 1, by omega⟩
  cases vs with
  | nil =>
    rw [writeItems, chained, List.nil_append, items_close]
    exact ⟨[], _, rfl, rfl, rfl⟩
  | cons v vs =>
    obtain ⟨first, others⟩ := legible
    obtain ⟨x, more, head, mark, noEnd⟩ := head_write v first
    obtain ⟨j, step⟩ :=
      items_step fuel depth asked n head mark noEnd (writeItems vs) (']' :: rest) i
    have longer := length_chained_cons (n == 0) (write v) (writeItems vs)
    have some : 0 < (write v).toList.length := by simp [head]
    rw [writeItems] at enough ⊢
    have ends : Ends (chained false (writeItems vs) ++ ']' :: rest) :=
      ends_chained _ (.inr (.inl rfl))
    have enoughFirst : 2 * ((write v).toList.length +
        (chained false (writeItems vs) ++ ']' :: rest).length) + 1 ≤ fuel := by
      simp only [List.length_append, List.length_cons]
      omega
    have next : (n + 1 == 0) = false := rfl
    have enoughOthers :
        2 * ((chained (n + 1 == 0) (writeItems vs)).length + rest.length + 1) + 2 ≤ fuel := by
      rw [next]
      omega
    obtain ⟨t, ⟨behind, k⟩, read, rfl, held⟩ := value_write v first ends enoughFirst j
    obtain ⟨ts, after, readOthers, behind, heldOthers⟩ :=
      items_write vs others rest enoughOthers k
    rw [next] at readOthers
    rw [step, read, itemAnd, readOthers]
    exact ⟨t :: ts, after, rfl, behind, t, ts, rfl, held, heldOthers⟩

theorem members_write (ms : List (String × Value)) {depth : Nat} {asked : Interest}
    (legible : LegibleMembers ms depth asked) (first : Bool) {tail : List Char} (ends : Ends tail)
    {fuel : Nat}
    (enough : 2 * ((chained first (writeMembers ms)).length + tail.length) + 2 ≤ fuel) (i : Nat) :
    ∃ found left j, 2 * tail.length + 2 ≤ left ∧ MembersHeldBy ms found ∧
      members fuel depth asked first ⟨chained first (writeMembers ms) ++ tail, i⟩ =
        (found ++ (members left depth asked (first && ms.isEmpty) ⟨tail, j⟩).1,
          (members left depth asked (first && ms.isEmpty) ⟨tail, j⟩).2) := by
  cases ms with
  | nil =>
    refine ⟨[], fuel, i, ?_, rfl, ?_⟩
    · simp only [writeMembers, chained, List.length_nil] at enough
      omega
    · simp [writeMembers, chained]
  | cons m ms =>
    obtain ⟨key, v⟩ := m
    obtain ⟨fuel, rfl⟩ : ∃ n, fuel = n + 1 := ⟨fuel - 1, by omega⟩
    obtain ⟨own, others⟩ := legible
    obtain ⟨place, j, step⟩ :=
      members_step fuel depth asked first key (write v) (writeMembers ms) tail i
    rw [writeMembers] at enough ⊢
    obtain ⟨enoughOwn, enoughOthers⟩ := enough_of_cons enough
    obtain ⟨t, ⟨behind, k⟩, read, rfl, held⟩ :=
      value_write v own (ends_chained (writeMembers ms) ends) enoughOwn j
    obtain ⟨found, left, j, enoughLeft, heldOthers, readOthers⟩ :=
      members_write ms others false ends enoughOthers k
    refine ⟨(key, place, t) :: found, left, j, enoughLeft,
      ⟨place, t, found, rfl, held, heldOthers⟩, ?_⟩
    rw [step, read]
    simp only [memberAnd, readOthers, List.isEmpty_cons, Bool.and_false, Bool.false_and,
      List.cons_append]

end

theorem read_root (asked : Interest) (text : String) :
    (read asked text).root =
      (value (2 * text.toList.length + 2) maxDepth asked (.start text.toList)).1 := by
  unfold read
  dsimp only
  split
  · next root none => rw [none]
  · next root after some => rw [some]

theorem enough_of_read (text : String) :
    2 * (text.toList.length + ([] : List Char).length) + 1 ≤ 2 * text.toList.length + 2 := by
  rw [List.length_nil]
  omega

/-- A value that is asked for in full is read from its text, and nothing is wrong with the text. -/
theorem read_write (v : Value) {asked : Interest} (legible : v.Legible maxDepth asked) :
    ∃ t, read asked (write v) = ⟨t, none⟩ ∧ v.HeldBy t := by
  have enough := enough_of_read (write v)
  have ends : Ends [] := trivial
  obtain ⟨t, ⟨_, j⟩, found, rfl, held⟩ := value_write v legible ends enough 0
  rw [List.append_nil] at found
  refine ⟨t, ?_, held⟩
  unfold read
  dsimp only [Cursor.start]
  rw [found]
  rfl

end RubyScaffold.Json
