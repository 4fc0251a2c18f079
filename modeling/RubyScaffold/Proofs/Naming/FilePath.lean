import Mathlib
import RubyScaffold.Class.Outline
import RubyScaffold.Files.Path
import RubyScaffold.Proofs.Text.Joins
import RubyScaffold.Proofs.Text.Pairs
import RubyScaffold.Proofs.Unicode.LetterCase

/-!
The parts of the path that a class is kept at. Snake case works on the parts between slashes one by
one and leaves slashes and dots alone, so the parts of the path are those of the names.
-/

set_option autoImplicit false

namespace RubyScaffold

namespace Unicode

/-- A character of ASCII below the small letters that is no capital. -/
def IsMark (x : Char) : Prop :=
  0 < x.toNat ∧ x.toNat ≤ 0x60 ∧ x.isUpper = false

instance (x : Char) : Decidable (IsMark x) :=
  inferInstanceAs (Decidable (_ ∧ _))

private theorem loweringShift?_above {c : Char} {shift : Int}
    (found : loweringShift? c = some shift) : 0x60 < (c.toNat + shift).toNat := by
  obtain ⟨run, search, rfl⟩ := Option.map_eq_some_iff.mp found
  have inside := List.find?_some search
  simp only [inStridedRun, Bool.and_eq_true, decide_eq_true_eq] at inside
  have above : ∀ r ∈ loweringRuns, (0x60 : Int) < r.1 + r.2.2.2 := by decide +kernel
  have here := above run (List.mem_of_find?_eq_some search)
  omega

private theorem ofNat_ne_mark {x : Char} (mark : IsMark x) {n : Nat} (far : 0x60 < n) :
    Char.ofNat n ≠ x := by
  obtain ⟨visible, small, -⟩ := mark
  rintro rfl
  rw [Char.toNat_ofNat] at visible small
  split at small
  · omega
  · next bad => simp [bad] at visible

private theorem toLower_eq_mark_iff {x c : Char} (mark : IsMark x) : c.toLower = x ↔ c = x := by
  by_cases capital : c.isUpper = true
  · have bounds := isUpper_iff.mp capital
    have other : c ≠ x := by
      rintro rfl
      exact absurd capital (by simp [mark.2.2])
    rw [Char.toLower_eq_of_isUpper capital]
    exact iff_of_false (ofNat_ne_mark mark (by omega)) other
  · rw [Char.toLower_eq_of_not_isUpper capital]

theorem mem_lowering_mark {x c : Char} (mark : IsMark x) : x ∈ lowering c ↔ c = x := by
  unfold lowering
  split
  · rw [List.mem_singleton, eq_comm]
    exact toLower_eq_mark_iff mark
  · next high =>
    have other : c ≠ x := by
      rintro rfl
      have small := mark.2.1
      omega
    refine iff_of_false ?_ other
    split
    · have dotless : x ≠ 'i' := by
        rintro rfl
        exact absurd mark.2.1 (by decide)
      simp [dotless, (ofNat_ne_mark mark (n := 0x307) (by decide)).symm]
    · split
      · next shift found =>
        rw [List.mem_singleton]
        exact (ofNat_ne_mark mark (loweringShift?_above found)).symm
      · rw [List.mem_singleton]
        exact Ne.symm other

theorem lowering_ne_nil (c : Char) : lowering c ≠ [] := by
  unfold lowering
  split
  · simp
  · split
    · simp
    · split <;> simp

end Unicode

namespace Naming

open Unicode

def snakeList (cs : List Char) : List Char :=
  (snakeChars cs).map underscored

theorem toList_snakeCase (s : String) : (snakeCase s).toList = snakeList s.toList := by
  simp [snakeCase, snakeList]

private theorem lowering_slash : lowering '/' = ['/'] := by decide

private theorem lowering_dot : lowering '.' = ['.'] := by decide

private theorem startsWord_slash (before : Char) (after : Option Char) :
    startsWord before '/' after = false := by
  have caseless : isUppercase '/' = false := by decide +kernel
  simp [startsWord, caseless]

private theorem snakeTail_slash (cs : List Char) : snakeTail '/' cs = snakeChars cs := by
  cases cs with
  | nil => rfl
  | cons c rest =>
    have small : isLowercase '/' = false := by decide +kernel
    have capital : isUppercase '/' = false := by decide +kernel
    have digit : '/'.isDigit = false := by decide
    simp [snakeTail, snakeChars, startsWord, small, capital, digit]

/-- What follows shows before a point only if it is a small letter. -/
theorem snakeTail_append {before : Char} {xs ys : List Char}
    (free : ys.head?.any isLowercase = false) :
    snakeTail before (xs ++ ys) = snakeTail before xs ++ snakeTail (xs.getLastD before) ys := by
  induction xs generalizing before with
  | nil => rfl
  | cons x xs ih =>
    have same : startsWord before x (xs ++ ys).head? = startsWord before x xs.head? := by
      cases xs with
      | nil => simp [startsWord, free]
      | cons y xs => rfl
    rw [List.cons_append, snakeTail, snakeTail, same, ih, List.getLastD_cons, ← List.append_assoc]

private theorem snakeTail_append_slash (before : Char) (xs ys : List Char) :
    snakeTail before (xs ++ '/' :: ys) = snakeTail before xs ++ '/' :: snakeChars ys := by
  have caseless : isLowercase '/' = false := by decide +kernel
  rw [snakeTail_append (by simpa using caseless), snakeTail, startsWord_slash, lowering_slash,
    snakeTail_slash]
  rfl

private theorem snakeList_append_slash (xs ys : List Char) :
    snakeList (xs ++ '/' :: ys) = snakeList xs ++ '/' :: snakeList ys := by
  have slash : underscored '/' = '/' := by decide
  cases xs with
  | nil => simp [snakeList, snakeChars, lowering_slash, snakeTail_slash, slash]
  | cons x xs => simp [snakeList, snakeChars, snakeTail_append_slash, slash]

private theorem snakeList_intercalate (parts : List (List Char)) :
    snakeList (['/'].intercalate parts) = ['/'].intercalate (parts.map snakeList) := by
  induction parts with
  | nil => rfl
  | cons part rest ih =>
    cases rest with
    | nil => simp
    | cons next rest =>
      rw [List.map_cons] at ih
      simp [snakeList_append_slash, ih]

private theorem mem_snakeTail {x before : Char} {cs : List Char} (mem : x ∈ snakeTail before cs) :
    x = '_' ∨ ∃ c ∈ cs, x ∈ lowering c := by
  induction cs generalizing before with
  | nil => simp [snakeTail] at mem
  | cons c rest ih =>
    rw [snakeTail, List.mem_append, List.mem_append] at mem
    rcases mem with (line | own) | later
    · split at line
      · exact .inl (List.mem_singleton.mp line)
      · cases line
    · exact .inr ⟨c, List.mem_cons_self, own⟩
    · exact (ih later).imp_right fun ⟨d, there, from'⟩ => ⟨d, List.mem_cons_of_mem _ there, from'⟩

theorem mem_snakeChars {x : Char} {cs : List Char} (mem : x ∈ snakeChars cs) :
    x = '_' ∨ ∃ c ∈ cs, x ∈ lowering c := by
  cases cs with
  | nil => simp [snakeChars] at mem
  | cons c rest =>
    rw [snakeChars, List.mem_append] at mem
    rcases mem with own | later
    · exact .inr ⟨c, List.mem_cons_self, own⟩
    · exact (mem_snakeTail later).imp_right fun ⟨d, there, from'⟩ =>
        ⟨d, List.mem_cons_of_mem _ there, from'⟩

private theorem lowering_mem_snakeTail {c before : Char} {cs : List Char} (mem : c ∈ cs) :
    ∀ x ∈ lowering c, x ∈ snakeTail before cs := by
  induction cs generalizing before with
  | nil => cases mem
  | cons d rest ih =>
    intro x own
    rw [snakeTail, List.mem_append, List.mem_append]
    rcases List.mem_cons.mp mem with rfl | later
    · exact .inl (.inr own)
    · exact .inr (ih later x own)

private theorem lowering_mem_snakeChars {c : Char} {cs : List Char} (mem : c ∈ cs) :
    ∀ x ∈ lowering c, x ∈ snakeChars cs := by
  cases cs with
  | nil => cases mem
  | cons d rest =>
    intro x own
    rw [snakeChars, List.mem_append]
    rcases List.mem_cons.mp mem with rfl | later
    · exact .inl own
    · exact .inr (lowering_mem_snakeTail later x own)

theorem slash_mem_snakeList {cs : List Char} (mem : '/' ∈ snakeList cs) : '/' ∈ cs := by
  obtain ⟨x, inside, same⟩ := List.mem_map.mp mem
  have slash : x = '/' := by
    unfold underscored at same
    split at same
    · exact absurd same (by decide)
    · exact same
  rcases mem_snakeChars inside with rfl | ⟨c, there, own⟩
  · exact absurd slash (by decide)
  · rw [slash, mem_lowering_mark (by decide)] at own
    exact own ▸ there

private theorem snakeTail_dots (n : Nat) :
    snakeTail '.' (List.replicate n '.') = List.replicate n '.' := by
  have caseless : isUppercase '.' = false := by decide +kernel
  induction n with
  | zero => rfl
  | succ n ih => simp [List.replicate_succ, snakeTail, startsWord, caseless, lowering_dot, ih]

private theorem snakeList_dots (n : Nat) :
    snakeList (List.replicate n '.') = List.replicate n '.' := by
  have dot : underscored '.' = '.' := by decide
  cases n with
  | zero => rfl
  | succ n => simp [snakeList, List.replicate_succ, snakeChars, lowering_dot, snakeTail_dots, dot]

theorem snakeList_eq_dots_iff {cs : List Char} (n : Nat) :
    snakeList cs = List.replicate n '.' ↔ cs = List.replicate n '.' := by
  constructor
  · intro same
    have dots : ∀ c ∈ cs, c = '.' := by
      intro c mem
      obtain ⟨x, own⟩ := List.exists_mem_of_ne_nil _ (lowering_ne_nil c)
      have there : underscored x ∈ snakeList cs :=
        List.mem_map_of_mem (lowering_mem_snakeChars mem x own)
      rw [same] at there
      have dot : x = '.' := by
        have line := List.eq_of_mem_replicate there
        unfold underscored at line
        split at line
        · exact absurd line (by decide)
        · exact line
      rwa [dot, mem_lowering_mark (by decide)] at own
    have whole : cs = List.replicate cs.length '.' := List.eq_replicate_of_mem dots
    rw [whole, snakeList_dots] at same
    have long := congrArg List.length same
    rw [List.length_replicate, List.length_replicate] at long
    rw [whole, long]
  · rintro rfl
    exact snakeList_dots n

open Files (pathParts)

theorem pathParts_eq (path : String) :
    pathParts path = (path.toList.splitOn '/').map String.ofList := by
  rw [pathParts, Text.pieces_eq_splitOn]

private theorem toList_pathParts (names : List String) :
    (names.flatMap pathParts).map String.toList =
      names.flatMap fun name => name.toList.splitOn '/' := by
  simp [List.map_flatMap, pathParts_eq, Function.comp_def]

private theorem intercalate_snakeCase (names : List String) :
    ['/'].intercalate (names.map fun name => (snakeCase name).toList) =
      ['/'].intercalate ((names.flatMap fun name => name.toList.splitOn '/').map snakeList) := by
  have whole : ∀ name : String, (snakeCase name).toList =
      ['/'].intercalate ((name.toList.splitOn '/').map snakeList) := by
    intro name
    rw [← snakeList_intercalate, List.intercalate_splitOn, toList_snakeCase]
  have filled : ∀ part ∈ names.map fun name => (name.toList.splitOn '/').map snakeList,
      part ≠ [] := by
    intro part mem
    obtain ⟨name, -, rfl⟩ := List.mem_map.mp mem
    simp [List.splitOn_ne_nil]
  have flat := Text.intercalate_flatten ['/'] filled
  rw [List.map_map] at flat
  rw [List.map_flatMap, List.flatMap_def, ← flat]
  simp only [whole, Function.comp_def]

theorem constantParts_eq (cs : List Char) : constantParts cs = Text.pairPieces ':' ':' cs := by
  fun_induction constantParts cs with
  | case1 => rfl
  | case2 rest ih => rw [Text.pairPieces, if_pos ⟨rfl, rfl⟩, ih]
  | case3 c rest single found ih => rw [Text.pairPieces_cons single, ← ih, found]
  | case4 c rest single p ps found ih => rw [Text.pairPieces_cons single, ← ih, found]

/-- The parts of the path of a constant are the parts of its names in snake case, the last of them
with the extension. -/
theorem pathParts_constantFilePath (segments : List String) :
    pathParts (constantFilePath segments) =
      ((constantNames segments).flatMap pathParts).dropLast.map snakeCase ++
        [snakeCase (((constantNames segments).flatMap pathParts).getLastD "") ++ ".rb"] := by
  have lists := toList_pathParts (constantNames segments)
  have joined := intercalate_snakeCase (constantNames segments)
  have text : (constantFilePath segments).toList =
      ['/'].intercalate ((constantNames segments).map fun name => (snakeCase name).toList) ++
        ".rb".toList := by
    simp [constantFilePath, Function.comp_def]
  rw [pathParts_eq, text, joined, ← lists]
  generalize constantNames segments = names at lists ⊢
  generalize names.flatMap pathParts = parts at lists ⊢
  have free : ∀ part ∈ parts, '/' ∉ snakeList part.toList := by
    intro part mem slash
    have here : part.toList ∈ names.flatMap fun name => name.toList.splitOn '/' :=
      lists ▸ List.mem_map_of_mem mem
    obtain ⟨name, -, piece⟩ := List.mem_flatMap.mp here
    exact Text.not_mem_of_mem_splitOn piece (slash_mem_snakeList slash)
  have named : (String.ofList ∘ snakeList) ∘ String.toList = snakeCase := by
    funext name
    exact String.toList_injective (by simp [toList_snakeCase])
  rw [Text.intercalate_append]
  cases parts using List.reverseRecOn with
  | nil => decide +kernel
  | append_singleton parts last =>
    simp only [List.map_append, List.map_singleton, List.dropLast_concat, List.getLastD_concat]
    rw [List.splitOn_intercalate '/' _ (by simp)]
    · rw [List.map_append, List.map_map, List.map_map, named, List.map_singleton,
        String.ofList_append, ← toList_snakeCase, String.ofList_toList, String.ofList_toList]
    · intro block mem
      simp only [List.mem_append, List.mem_map, List.mem_singleton] at mem
      rcases mem with ⟨-, ⟨part, inside, rfl⟩, rfl⟩ | rfl
      · exact free part (List.mem_append_left _ inside)
      · rw [List.mem_append]
        rintro (slash | slash)
        · exact free last (by simp) slash
        · exact absurd slash (by decide)

end Naming

end RubyScaffold
