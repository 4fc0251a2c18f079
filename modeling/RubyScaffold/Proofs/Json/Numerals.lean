import RubyScaffold.Decimal.Notation
import RubyScaffold.Json.Number

/-!
Numbers that were written and are read again. An integer of 64 bits comes back as it was; of a
binary number it is only shown how far its text is read.
-/

set_option autoImplicit false

namespace RubyScaffold.Json

open Text (Cursor)

/-- What may stand behind a written value: nothing, a comma or a closing mark. -/
def Ends : List Char → Prop
  | [] => True
  | x :: _ => x = ',' ∨ x = ']' ∨ x = '}'

private theorem le_ofDigitChars (ds : List Char) (n : Nat) : n ≤ Nat.ofDigitChars 10 ds n := by
  induction ds generalizing n with
  | nil => simp
  | cons d ds ih =>
    have more := ih (10 * n + (d.toNat - '0'.toNat))
    rw [Nat.ofDigitChars_cons]
    omega

private theorem absorb_of_lt (ds : List Char) (n : Nat)
    (fits : Nat.ofDigitChars 10 ds n < 0x10000000000000000) :
    absorb n ds = (Nat.ofDigitChars 10 ds n, []) := by
  induction ds generalizing n with
  | nil => simp [absorb]
  | cons d ds ih =>
    have swap : n * 10 + (d.toNat - '0'.toNat) = 10 * n + (d.toNat - '0'.toNat) := by omega
    rw [Nat.ofDigitChars_cons] at fits ⊢
    have small := le_ofDigitChars ds (10 * n + (d.toNat - '0'.toNat))
    have step : n * 10 + (d.toNat - '0'.toNat) < 0x10000000000000000 := by omega
    rw [absorb, if_pos step, swap, ih _ fits]

private theorem toDigits_leading_zero {n : Nat} {rest : List Char}
    (leading : Nat.toDigits 10 n = '0' :: rest) : rest = [] := by
  induction n using Nat.strongRecOn generalizing rest with
  | ind n ih =>
    rw [Nat.toDigits_eq_if (by decide)] at leading
    by_cases single : n < 10
    · rw [if_pos single] at leading
      exact (List.cons.inj leading).2.symm
    · rw [if_neg single] at leading
      exfalso
      cases upper : Nat.toDigits 10 (n / 10) with
      | nil => exact Nat.toDigits_ne_nil upper
      | cons x more =>
        rw [upper, List.cons_append] at leading
        obtain ⟨rfl, -⟩ := List.cons.inj leading
        have none := ih (n / 10) (by omega) upper
        have value : Nat.ofDigitChars 10 (Nat.toDigits 10 (n / 10)) 0 = n / 10 :=
          Nat.ofDigitChars_ten_toDigits
        rw [upper, none] at value
        have zero : Nat.ofDigitChars 10 ['0'] 0 = 0 := by decide
        omega

private theorem digitRun_append {ds rest : List Char} (digits : ∀ d ∈ ds, d.isDigit = true)
    (ends : Ends rest) (i : Nat) :
    digitRun ⟨ds ++ rest, i⟩ = (ds, ⟨rest, i + ds.length⟩) := by
  have stops : rest.takeWhile Char.isDigit = [] ∧ rest.dropWhile Char.isDigit = rest := by
    cases rest with
    | nil => exact ⟨rfl, rfl⟩
    | cons x more =>
      have other : x.isDigit = false := by
        rcases ends with rfl | rfl | rfl <;> decide
      simp [other]
  have taken : (ds ++ rest).takeWhile Char.isDigit = ds := by
    rw [List.takeWhile_append_of_pos digits, stops.1, List.append_nil]
  have left : (ds ++ rest).dropWhile Char.isDigit = rest := by
    rw [List.dropWhile_append_of_pos digits, stops.2]
  simp only [digitRun, taken, left]

theorem isDigit_toDigits (n : Nat) : ∀ d ∈ Nat.toDigits 10 n, d.isDigit = true :=
  fun _ mem => Nat.isDigit_of_mem_toDigits (by decide) (by decide) mem

private theorem numberFrom_toDigits (negative : Bool) {n : Nat} (fits : n < 0x10000000000000000)
    {rest : List Char} (ends : Ends rest) (i : Nat) :
    ∃ after, numberFrom negative ⟨Nat.toDigits 10 n ++ rest, i⟩ =
      .ok (wholeNumber negative n, after) ∧ after.rest = rest := by
  have run := digitRun_append (isDigit_toDigits n) ends i
  have value : absorb 0 (Nat.toDigits 10 n) = (n, []) := by
    rw [absorb_of_lt _ _ (by rwa [Nat.ofDigitChars_ten_toDigits]), Nat.ofDigitChars_ten_toDigits]
  refine ⟨⟨rest, i + (Nat.toDigits 10 n).length⟩, ?_, rfl⟩
  unfold numberFrom
  rw [run]
  split
  · next empty => exact absurd (congrArg Prod.fst empty) Nat.toDigits_ne_nil
  · next x more _ leading =>
    have alone := toDigits_leading_zero (congrArg Prod.fst leading)
    cases alone
  · next ds after _ _ same =>
    obtain ⟨rfl, rfl⟩ := Prod.mk.inj same
    rw [value]
    cases rest with
    | nil => rfl
    | cons x more => rcases ends with rfl | rfl | rfl <;> rfl

theorem toList_toString_int (i : Int) :
    (toString i).toList = if i < 0 then '-' :: Nat.toDigits 10 i.natAbs
      else Nat.toDigits 10 i.natAbs := by
  cases i with
  | ofNat n =>
    have natural : ¬ Int.ofNat n < 0 := by simp
    rw [if_neg natural]
    exact Nat.toList_repr
  | negSucc n =>
    have negative : Int.negSucc n < 0 := Int.negSucc_lt_zero n
    rw [if_pos negative]
    change ("-" ++ Nat.repr (n + 1)).toList = '-' :: Nat.toDigits 10 (n + 1)
    rw [String.toList_append, Nat.toList_repr]
    rfl

/-- An integer that 64 bits hold, with a sign or without, is read back. -/
theorem number_toString {i : Int} (low : -0x8000000000000000 ≤ i) (high : i < 0x10000000000000000) {rest : List Char}
    (ends : Ends rest) (j : Nat) :
    ∃ after, number ⟨(toString i).toList ++ rest, j⟩ = .ok (.integer i, after) ∧
      after.rest = rest := by
  rw [toList_toString_int]
  by_cases negative : i < 0
  · have fits : i.natAbs < 0x10000000000000000 := by omega
    obtain ⟨after, read, behind⟩ := numberFrom_toDigits true fits ends (j + Text.byteLength ['-'])
    refine ⟨after, ?_, behind⟩
    have small : 0 < i.natAbs ∧ i.natAbs ≤ 0x8000000000000000 := by omega
    have back : -(i.natAbs : Int) = i := by omega
    rw [if_pos negative]
    change numberFrom true ⟨Nat.toDigits 10 i.natAbs ++ rest, j + Text.byteLength ['-']⟩ = _
    rw [read, wholeNumber, if_neg (by decide), if_pos small, back]
  · have fits : i.natAbs < 0x10000000000000000 := by omega
    obtain ⟨after, read, behind⟩ := numberFrom_toDigits false fits ends j
    refine ⟨after, ?_, behind⟩
    have back : (i.natAbs : Int) = i := by omega
    have unsigned : ∀ more, Nat.toDigits 10 i.natAbs ++ rest ≠ '-' :: more := by
      intro more signed
      cases digits : Nat.toDigits 10 i.natAbs with
      | nil => exact Nat.toDigits_ne_nil digits
      | cons d ds =>
        have isDigit := isDigit_toDigits i.natAbs d (by simp [digits])
        rw [digits, List.cons_append] at signed
        obtain ⟨rfl, -⟩ := List.cons.inj signed
        exact absurd isDigit (by decide)
    rw [if_neg negative]
    unfold number
    split
    · next more signed => exact absurd signed (unsigned more)
    · rw [read, wholeNumber, if_pos (by decide), back]

end RubyScaffold.Json
