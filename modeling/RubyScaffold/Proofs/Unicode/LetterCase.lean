import Mathlib
import RubyScaffold.Unicode.Lowercase
import RubyScaffold.Unicode.Lowering
import RubyScaffold.Unicode.Uppercase

/-!
The cases of letters. No character is both a capital and a small letter, and a small letter is its
own lower-case form.
-/

set_option autoImplicit false

namespace RubyScaffold.Unicode

variable {c : Char}

section Tables

def KeepsParity (run : Nat × Nat × Nat) : Prop :=
  2 ∣ run.2.2 ∨ run.1 = run.2.1

/-- Whether two runs have nothing in common by their ends or by the parity of their numbers. -/
def RunsApart (r s : Nat × Nat × Nat) : Prop :=
  r.2.1 < s.1 ∨ s.2.1 < r.1 ∨ (KeepsParity r ∧ KeepsParity s ∧ r.1 % 2 ≠ s.1 % 2)

instance (run : Nat × Nat × Nat) : Decidable (KeepsParity run) :=
  inferInstanceAs (Decidable (_ ∨ _))

instance (r s : Nat × Nat × Nat) : Decidable (RunsApart r s) :=
  inferInstanceAs (Decidable (_ ∨ _ ∨ _))

def InOrder (runs : List (Nat × Nat × Nat)) : Prop :=
  (runs.map Prod.fst).SortedLE

instance (runs : List (Nat × Nat × Nat)) : Decidable (InOrder runs) :=
  inferInstanceAs (Decidable (List.SortedLE _))

/-- Whether the runs of two tables in order are apart. What ends before a run begins ends before the
later runs begin too. -/
def tablesApart : List (Nat × Nat × Nat) → List (Nat × Nat × Nat) → Bool
  | [], _ => true
  | r :: rs, ss =>
    let later := ss.dropWhile fun s => s.2.1 < r.1
    (later.takeWhile fun s => s.1 ≤ r.2.1).all (fun s => RunsApart r s) && tablesApart rs later

variable {rs ss : List (Nat × Nat × Nat)} {r s : Nat × Nat × Nat}

private theorem inOrder_cons : InOrder (r :: rs) ↔ (∀ r' ∈ rs, r.1 ≤ r'.1) ∧ InOrder rs := by
  simp [InOrder, List.sortedLE_iff_pairwise]

private theorem InOrder.of_sublist (order : InOrder ss) (part : rs.Sublist ss) : InOrder rs :=
  (order.pairwise.sublist (part.map _)).sortedLE

private theorem lt_of_mem_dropWhile {n : Nat} (order : InOrder ss)
    (mem : s ∈ ss.dropWhile fun s => s.1 ≤ n) : n < s.1 := by
  induction ss with
  | nil => cases mem
  | cons t ss ih =>
    obtain ⟨first, rest⟩ := inOrder_cons.mp order
    rw [List.dropWhile_cons] at mem
    split at mem
    · exact ih rest mem
    · next beyond =>
      have above : n < t.1 := by simpa using beyond
      rcases List.mem_cons.mp mem with rfl | later
      · exact above
      · exact above.trans_le (first s later)

private theorem runsApart_of_tablesApart (orderR : InOrder rs) (orderS : InOrder ss)
    (apart : tablesApart rs ss = true) : ∀ r ∈ rs, ∀ s ∈ ss, RunsApart r s := by
  induction rs generalizing ss with
  | nil => simp
  | cons r rs ih =>
    obtain ⟨first, orderRest⟩ := inOrder_cons.mp orderR
    have orderLater : InOrder (ss.dropWhile fun s => s.2.1 < r.1) :=
      orderS.of_sublist (List.dropWhile_sublist _)
    simp only [tablesApart, Bool.and_eq_true, List.all_eq_true, decide_eq_true_eq] at apart
    obtain ⟨near, rest⟩ := apart
    intro r' memR s memS
    rw [← List.takeWhile_append_dropWhile (p := fun s => s.2.1 < r.1) (l := ss),
      List.mem_append] at memS
    rcases memS with before | later
    · -- the run ends before `r` begins, and so before `r'` does
      have ends : s.2.1 < r.1 := by simpa using List.mem_takeWhile_imp before
      rcases List.mem_cons.mp memR with rfl | behind
      · exact .inr (.inl ends)
      · exact .inr (.inl (ends.trans_le (first r' behind)))
    · rcases List.mem_cons.mp memR with rfl | behind
      · rw [← List.takeWhile_append_dropWhile (p := fun s => s.1 ≤ r'.2.1)
          (l := ss.dropWhile fun s => s.2.1 < r'.1), List.mem_append] at later
        rcases later with here | beyond
        · exact near s here
        · exact .inl (lt_of_mem_dropWhile orderLater beyond)
      · exact ih orderRest orderLater rest r' behind s later

private theorem inStridedRun_iff : inStridedRun r.1 r.2.1 r.2.2 c = true ↔
    r.1 ≤ c.toNat ∧ c.toNat ≤ r.2.1 ∧ r.2.2 ∣ c.toNat - r.1 := by
  simp [inStridedRun, and_assoc, Nat.dvd_iff_mod_eq_zero]

private theorem mod_two_of_inStridedRun (keeps : KeepsParity r)
    (inside : inStridedRun r.1 r.2.1 r.2.2 c = true) : c.toNat % 2 = r.1 % 2 := by
  obtain ⟨above, below, steps⟩ := inStridedRun_iff.mp inside
  rcases keeps with even | single
  · exact ((Nat.modEq_iff_dvd' above).mpr (even.trans steps)).symm
  · rw [Nat.le_antisymm below (single ▸ above), single]

private theorem not_inStridedRun_of_apart (apart : RunsApart r s)
    (inside : inStridedRun r.1 r.2.1 r.2.2 c = true) : ¬ inStridedRun s.1 s.2.1 s.2.2 c = true := by
  intro other
  have first := inStridedRun_iff.mp inside
  have second := inStridedRun_iff.mp other
  rcases apart with before | behind | ⟨keepsR, keepsS, differ⟩
  · omega
  · omega
  · exact differ ((mod_two_of_inStridedRun keepsR inside).symm.trans
      (mod_two_of_inStridedRun keepsS other))

/-- What is in one of two tables that are apart is in no run of the other. -/
private theorem not_inStridedRun_of_tables (orderR : InOrder rs) (orderS : InOrder ss)
    (apart : tablesApart rs ss = true) (inside : inStridedRuns rs c = true) (mem : s ∈ ss) :
    ¬ inStridedRun s.1 s.2.1 s.2.2 c = true := by
  obtain ⟨r, memR, here⟩ := List.any_eq_true.mp inside
  exact not_inStridedRun_of_apart (runsApart_of_tablesApart orderR orderS apart r memR s mem) here

end Tables

theorem isUpper_iff : c.isUpper = true ↔ 65 ≤ c.toNat ∧ c.toNat ≤ 90 := by
  simp [Char.isUpper, UInt32.le_iff_toNat_le]

private theorem isLower_iff : c.isLower = true ↔ 97 ≤ c.toNat ∧ c.toNat ≤ 122 := by
  simp [Char.isLower, UInt32.le_iff_toNat_le]

private theorem isDigit_iff : c.isDigit = true ↔ 48 ≤ c.toNat ∧ c.toNat ≤ 57 := by
  simp [Char.isDigit, UInt32.le_iff_toNat_le]

private theorem isUppercase_of_ascii (ascii : c.toNat < 0x80) : isUppercase c = c.isUpper :=
  if_pos ascii

private theorem isLowercase_of_ascii (ascii : c.toNat < 0x80) : isLowercase c = c.isLower :=
  if_pos ascii

theorem lowering_of_ascii (ascii : c.toNat < 0x80) : lowering c = [c.toLower] :=
  if_pos ascii

theorem lowering_of_isUpper (capital : c.isUpper = true) : lowering c = [c.toLower] := by
  have bounds := isUpper_iff.mp capital
  exact lowering_of_ascii (by omega)

theorem isUppercase_of_isUpper (capital : c.isUpper = true) : isUppercase c = true := by
  have bounds := isUpper_iff.mp capital
  rwa [isUppercase_of_ascii (by omega)]

theorem isLowercase_of_isLower (small : c.isLower = true) : isLowercase c = true := by
  have bounds := isLower_iff.mp small
  rwa [isLowercase_of_ascii (by omega)]

theorem isLowercase_of_isUpper (capital : c.isUpper = true) : isLowercase c = false := by
  have bounds := isUpper_iff.mp capital
  rw [isLowercase_of_ascii (by omega), Bool.eq_false_iff]
  exact Char.not_isLower_of_isUpper capital

theorem isDigit_of_isUpper (capital : c.isUpper = true) : c.isDigit = false := by
  have bounds := isUpper_iff.mp capital
  rw [Bool.eq_false_iff, Ne, isDigit_iff]
  omega

theorem toNat_toLower_lt (ascii : c.toNat < 0x80) : c.toLower.toNat < 0x80 := by
  by_cases capital : c.isUpper = true
  · have bounds := isUpper_iff.mp capital
    rw [Char.toLower_eq_of_isUpper capital, Char.toNat_ofNat, if_pos (.inl (by omega))]
    omega
  · rwa [Char.toLower_eq_of_not_isUpper capital]

/-- Whether a character is no capital and its own lower-case form. -/
def IsLowered (c : Char) : Prop :=
  isUppercase c = false ∧ lowering c = [c]

theorem isLowered_of_ascii (ascii : c.toNat < 0x80) (other : c.isUpper = false) : IsLowered c := by
  refine ⟨by rw [isUppercase_of_ascii ascii, other], ?_⟩
  rw [lowering_of_ascii ascii, Char.toLower_eq_of_not_isUpper (by simp [other])]

theorem isLowered_of_isDigit (digit : c.isDigit = true) : IsLowered c := by
  have bounds := isDigit_iff.mp digit
  refine isLowered_of_ascii (by omega) ?_
  rw [Bool.eq_false_iff, Ne, isUpper_iff]
  omega

theorem IsLowered.toLower (lowered : IsLowered c) : c.toLower = c := by
  refine Char.toLower_eq_of_not_isUpper fun capital => ?_
  exact absurd (isUppercase_of_isUpper capital) (by simp [lowered.1])

theorem isLowered_of_isLowercase (small : isLowercase c = true) : IsLowered c := by
  by_cases ascii : c.toNat < 0x80
  · rw [isLowercase_of_ascii ascii] at small
    exact isLowered_of_ascii ascii (Bool.eq_false_iff.mpr (Char.not_isUpper_of_isLower small))
  · have inside : inStridedRuns lowercaseRuns c = true := by
      rwa [isLowercase, if_neg ascii] at small
    have order : InOrder lowercaseRuns := by decide +kernel
    constructor
    · have absent : ∀ s ∈ uppercaseRuns, ¬ inStridedRun s.1 s.2.1 s.2.2 c = true := fun s mem =>
        not_inStridedRun_of_tables order (by decide +kernel) (by decide +kernel) inside mem
      rw [isUppercase, if_neg ascii]
      exact List.any_eq_false.mpr absent
    · have absent : ∀ s ∈ loweringRuns.map fun run => (run.1, run.2.1, run.2.2.1),
          ¬ inStridedRun s.1 s.2.1 s.2.2 c = true := fun s mem =>
        not_inStridedRun_of_tables order (by decide +kernel) (by decide +kernel) inside mem
      have stays : loweringShift? c = none := by
        rw [loweringShift?, Option.map_eq_none_iff, List.find?_eq_none]
        exact fun run mem => absent _ (List.mem_map_of_mem mem)
      have dotless : c ≠ 'İ' := by
        rintro rfl
        exact absurd small (by decide +kernel)
      rw [lowering, if_neg ascii, if_neg dotless, stays]

end RubyScaffold.Unicode
