import RubyScaffold.Json.Reader
import RubyScaffold.Manifest.Decode

/-!
Every whole number that the reader delivers fits 64 bits, wherever it stands in the text: a wider
one is read as a binary number.
-/

set_option autoImplicit false

namespace RubyScaffold

mutual

def Tree.WordSized {π φ : Type} : Tree π φ → Prop
  | .integer _ i => Decode.fitsWord i = true
  | .list _ items _ => ItemsWordSized items
  | .table _ members _ => MembersWordSized members
  | .null _ | .bool _ _ | .float _ _ | .text _ _ | .skipped _ | .unreadable _ _ => True

def ItemsWordSized {π φ : Type} : List (Tree π φ) → Prop
  | [] => True
  | t :: rest => t.WordSized ∧ ItemsWordSized rest

def MembersWordSized {π φ : Type} : List (String × π × Tree π φ) → Prop
  | [] => True
  | (_, _, t) :: rest => t.WordSized ∧ MembersWordSized rest

end

theorem MembersWordSized.of_mem {π φ : Type} {found : List (String × π × Tree π φ)}
    (all : MembersWordSized found) {key : String} {p : π} {t : Tree π φ}
    (mem : (key, p, t) ∈ found) : t.WordSized := by
  induction found with
  | nil => cases mem
  | cons entry rest ih =>
    obtain ⟨first, others⟩ := all
    rcases List.mem_cons.mp mem with rfl | later
    · exact first
    · exact ih others later

namespace Json

open Text (Cursor)

def Number.WordSized : Number → Prop
  | .integer i => Decode.fitsWord i = true
  | .float _ => True

private theorem absorb_lt {n : Nat} (ds : List Char) (small : n < 0x10000000000000000) :
    (absorb n ds).1 < 0x10000000000000000 := by
  induction ds generalizing n with
  | nil => exact small
  | cons c rest ih =>
    rw [absorb]
    split
    · next fits => exact ih fits
    · exact small

private theorem wordSized_wholeNumber {n : Nat} (small : n < 0x10000000000000000)
    (negative : Bool) : (wholeNumber negative n).WordSized := by
  unfold wholeNumber
  split
  · simp only [Number.WordSized, Decode.fitsWord, Bool.and_eq_true, decide_eq_true_eq]
    omega
  · split
    · simp only [Number.WordSized, Decode.fitsWord, Bool.and_eq_true, decide_eq_true_eq]
      omega
    · trivial

private theorem assembled_wordSized {negative : Bool} {m : Nat} {e : Int} {c after : Cursor}
    {n : Number} (read : assembled negative m e c = .ok (n, after)) : n.WordSized := by
  unfold assembled at read
  split at read
  · cases read
    trivial
  · cases read

private theorem numberExponent_wordSized {negative : Bool} {m : Nat} {e : Int} {c after : Cursor}
    {n : Number} (read : numberExponent negative m e c = .ok (n, after)) : n.WordSized := by
  unfold numberExponent at read
  split at read
  split at read
  · split at read <;> cases read
  · split at read
    · split at read
      · cases read
      · cases read
        trivial
    · exact assembled_wordSized read

private theorem numberFraction_wordSized {negative : Bool} {m : Nat} {e : Int} {c after : Cursor}
    {n : Number} (read : numberFraction negative m e c = .ok (n, after)) : n.WordSized := by
  unfold numberFraction at read
  split at read
  · cases read
  · split at read
    dsimp only at read
    split at read
    · split at read
      · exact numberExponent_wordSized read
      · exact assembled_wordSized read
    · exact assembled_wordSized read

private theorem numberFrom_wordSized {negative : Bool} {c after : Cursor} {n : Number}
    (read : numberFrom negative c = .ok (n, after)) : n.WordSized := by
  unfold numberFrom at read
  split at read
  · split at read <;> cases read
  · cases read
  · next ds behind _ _ _ =>
    have small := absorb_lt ds (n := 0) (by decide)
    split at read
    next significand left taken =>
    rw [taken] at small
    split at read
    · exact numberFraction_wordSized read
    · exact numberExponent_wordSized read
    · exact numberExponent_wordSized read
    · split at read
      · cases read
        exact wordSized_wholeNumber small negative
      · exact assembled_wordSized read

private theorem number_wordSized {c after : Cursor} {n : Number}
    (read : number c = .ok (n, after)) : n.WordSized := by
  unfold number at read
  split at read
  · exact numberFrom_wordSized read
  · exact numberFrom_wordSized read

private theorem leaf_wordSized {α : Type} {c : Cursor} {build : Place → α → JsonTree}
    {r : Except Fault (α × Cursor)}
    (sized : ∀ p a after, r = .ok (a, after) → (build p a).WordSized) :
    (leaf c build r).1.WordSized := by
  unfold leaf
  split
  · exact sized _ _ _ rfl
  · trivial

variable {fuel : Nat}

private theorem value_wordSized_step
    (items_sized : ∀ depth asked i c, ItemsWordSized (items fuel depth asked i c).1)
    (members_sized : ∀ depth asked first c, MembersWordSized (members fuel depth asked first c).1)
    (depth : Nat) (asked : Interest) (c : Cursor) :
    (value (fuel + 1) depth asked c).1.WordSized := by
  rw [value.eq_def]
  dsimp only
  split
  · exact leaf_wordSized fun _ _ _ _ => trivial
  · trivial
  · exact leaf_wordSized fun _ _ _ _ => trivial
  · exact leaf_wordSized fun _ _ _ _ => trivial
  · exact leaf_wordSized fun _ _ _ _ => trivial
  · exact leaf_wordSized fun _ _ _ _ => trivial
  · next wanted _ _ _ _ _ =>
    have inside := items_sized (depth - 1) wanted 0 ((skipSpace c).advance 1)
    split
    · trivial
    · split
      · next found after eq => rw [eq] at inside; exact inside
      · next found f eq => rw [eq] at inside; exact inside
  · next wanted _ _ _ _ _ =>
    have inside := members_sized (depth - 1) wanted true ((skipSpace c).advance 1)
    split
    · trivial
    · split
      · next found after eq => rw [eq] at inside; exact inside
      · next found f eq => rw [eq] at inside; exact inside
  · split
    · refine leaf_wordSized fun p n after read => ?_
      have sized := number_wordSized read
      cases n with
      | integer i => exact sized
      | float x => trivial
    · trivial

private theorem items_wordSized_step
    (value_sized : ∀ depth asked c, (value fuel depth asked c).1.WordSized)
    (items_sized : ∀ depth asked i c, ItemsWordSized (items fuel depth asked i c).1)
    (depth : Nat) (asked : Interest) (i : Nat) (c : Cursor) :
    ItemsWordSized (items (fuel + 1) depth asked i c).1 := by
  rw [items.eq_def]
  dsimp -zeta only
  extract_lets start fail goOn behind
  have goes : ∀ c, ItemsWordSized (goOn c).1 := by
    intro c
    have first := value_sized depth (asked.item i) c
    dsimp only [goOn]
    split
    · next item eq => rw [eq] at first; exact ⟨first, trivial⟩
    · next item after eq =>
      rw [eq] at first
      exact ⟨first, items_sized depth asked (i + 1) after⟩
  split
  · trivial
  · trivial
  · split
    · exact goes _
    · split
      · split
        · trivial
        · trivial
        · exact goes _
      · trivial

private theorem members_wordSized_step
    (value_sized : ∀ depth asked c, (value fuel depth asked c).1.WordSized)
    (members_sized : ∀ depth asked first c, MembersWordSized (members fuel depth asked first c).1)
    (depth : Nat) (asked : Interest) (first : Bool) (c : Cursor) :
    MembersWordSized (members (fuel + 1) depth asked first c).1 := by
  rw [members.eq_def]
  dsimp -zeta only
  extract_lets start fail goOn behind
  have goes : ∀ c, MembersWordSized (goOn c).1 := by
    intro c
    dsimp only [goOn]
    split
    · trivial
    · next key afterKey _ =>
      split
      · exact ⟨trivial, trivial⟩
      · have first := value_sized depth (asked.member key) ((skipSpace afterKey).advance 1)
        split
        · next item eq => rw [eq] at first; exact ⟨first, trivial⟩
        · next item after eq =>
          rw [eq] at first
          exact ⟨first, members_sized depth asked false after⟩
      · exact ⟨trivial, trivial⟩
  split
  · trivial
  · trivial
  · split
    · split
      · exact goes _
      · trivial
    · split
      · split
        · trivial
        · exact goes _
        · trivial
        · trivial
      · trivial

/-- Wherever the reader stands, it delivers whole numbers of at most 64 bits. -/
private theorem wordSized (fuel : Nat) :
    (∀ depth asked c, (value fuel depth asked c).1.WordSized) ∧
    (∀ depth asked i c, ItemsWordSized (items fuel depth asked i c).1) ∧
    (∀ depth asked first c, MembersWordSized (members fuel depth asked first c).1) := by
  -- the three readers call each other with less fuel, so the induction carries all of them
  induction fuel with
  | zero =>
    refine ⟨?_, ?_, ?_⟩
    · intro depth asked c
      rw [value]
      trivial
    · intro depth asked i c
      rw [items]
      trivial
    · intro depth asked first c
      rw [members]
      trivial
  | succ fuel ih =>
    obtain ⟨value_sized, items_sized, members_sized⟩ := ih
    exact ⟨value_wordSized_step items_sized members_sized,
      items_wordSized_step value_sized items_sized,
      members_wordSized_step value_sized members_sized⟩

theorem read_wordSized (asked : Interest) (text : String) : (read asked text).root.WordSized := by
  have sized := (wordSized (2 * text.toList.length + 2)).1 maxDepth asked (.start text.toList)
  unfold read
  dsimp only
  split
  · next root eq => rw [eq] at sized; exact sized
  · next root after eq => rw [eq] at sized; exact sized

end Json

end RubyScaffold
