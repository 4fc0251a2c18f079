import RubyScaffold.Proofs.Json.Numerals
import RubyScaffold.Proofs.Text.Cursors

/-!
Binary numbers in JSON text. They are written with few characters, and reading one never goes
past those.
-/

set_option autoImplicit false

namespace RubyScaffold.Json

open Text (Cursor byteLength)

def isNumeric (c : Char) : Bool :=
  c.isDigit || ['-', '+', '.', 'e', 'E'].contains c

/-- One cursor lies behind another, past characters of numbers only. -/
def Past (c after : Cursor) : Prop :=
  ∃ taken, c.Reads taken after ∧ ∀ x ∈ taken, isNumeric x = true

theorem Past.leads {c after : Cursor} (past : Past c after) : c.Leads after := by
  obtain ⟨taken, read, -⟩ := past
  exact read.leads

private theorem Past.refl (c : Cursor) : Past c c := ⟨[], .refl c, by simp⟩

private theorem Past.trans {a b c : Cursor} (first : Past a b) (second : Past b c) : Past a c := by
  obtain ⟨xs, read, numeric⟩ := first
  obtain ⟨ys, read', numeric'⟩ := second
  refine ⟨xs ++ ys, read.trans read', ?_⟩
  intro x mem
  rcases List.mem_append.mp mem with mem | mem
  · exact numeric x mem
  · exact numeric' x mem

private theorem past_advance {c : Cursor} {x : Char} {more : List Char} (next : c.rest = x :: more)
    (numeric : isNumeric x = true) : Past c (c.advance 1) :=
  ⟨[x], Cursor.reads_advance_one next, by simpa using numeric⟩

private theorem byteLength_of_digits {ds : List Char} (digits : ∀ d ∈ ds, d.isDigit = true) :
    byteLength ds = ds.length := by
  induction ds with
  | nil => rfl
  | cons d ds ih =>
    obtain ⟨digit, others⟩ := List.forall_mem_cons.mp digits
    have one : d.utf8Size = 1 := by
      simp only [Char.isDigit, Bool.and_eq_true, decide_eq_true_eq] at digit
      exact Char.utf8Size_eq_one_iff.mpr (UInt32.le_trans digit.2 (by decide))
    rw [byteLength, one, ih others, List.length_cons, Nat.add_comm]

theorem reads_digitRun (c : Cursor) : c.Reads (digitRun c).1 (digitRun c).2 := by
  have digits : ∀ d ∈ c.rest.takeWhile Char.isDigit, d.isDigit = true :=
    List.all_eq_true.mp List.all_takeWhile
  refine ⟨List.takeWhile_append_dropWhile.symm, ?_⟩
  rw [digitRun, byteLength_of_digits digits]

private theorem past_digitRun (c : Cursor) : Past c (digitRun c).2 := by
  refine ⟨c.rest.takeWhile Char.isDigit, reads_digitRun c, ?_⟩
  intro x mem
  have digit : x.isDigit = true := List.all_eq_true.mp List.all_takeWhile x mem
  simp [isNumeric, digit]

private theorem assembled_past {negative : Bool} {m : Nat} {e : Int} {c after : Cursor} {n : Number}
    (read : assembled negative m e c = .ok (n, after)) : Past c after := by
  unfold assembled at read
  split at read
  · cases read
    exact .refl c
  · cases read

private theorem numberExponent_past {negative : Bool} {m : Nat} {e : Int} {c after : Cursor}
    {n : Number} (read : numberExponent negative m e c = .ok (n, after)) : Past c after := by
  unfold numberExponent at read
  split at read
  next down c' sign =>
  have start : Past c c' := by
    split at sign
    · next more next =>
      cases sign
      exact past_advance next (by decide)
    · next more next =>
      cases sign
      exact past_advance next (by decide)
    · cases sign
      exact .refl c
  have run := past_digitRun c'
  split at read
  · split at read <;> cases read
  · next ds behind _ same =>
    rw [same] at run
    split at read
    · split at read
      · cases read
      · cases read
        exact start.trans run
    · exact (start.trans run).trans (assembled_past read)

private theorem numberFraction_past {negative : Bool} {m : Nat} {e : Int} {c after : Cursor}
    {n : Number} (read : numberFraction negative m e c = .ok (n, after)) : Past c after := by
  have run := past_digitRun c
  unfold numberFraction at read
  split at read
  · cases read
  · next ds behind _ same =>
    rw [same] at run
    split at read
    next significand left _ =>
    dsimp only at read
    split at read
    · next x more next =>
      split at read
      · next mark =>
        have numeric : isNumeric x = true := by rcases mark with rfl | rfl <;> decide
        exact (run.trans (past_advance next numeric)).trans (numberExponent_past read)
      · exact run.trans (assembled_past read)
    · exact run.trans (assembled_past read)

private theorem numberFrom_past {negative : Bool} {c after : Cursor} {n : Number}
    (read : numberFrom negative c = .ok (n, after)) : Past c after := by
  have run := past_digitRun c
  unfold numberFrom at read
  split at read
  · split at read <;> cases read
  · cases read
  · next ds behind _ _ same =>
    rw [same] at run
    split at read
    next significand left _ =>
    split at read
    · next more next =>
      exact (run.trans (past_advance next (by decide))).trans (numberFraction_past read)
    · next more next =>
      exact (run.trans (past_advance next (by decide))).trans (numberExponent_past read)
    · next more next =>
      exact (run.trans (past_advance next (by decide))).trans (numberExponent_past read)
    · split at read
      · cases read
        exact run
      · exact run.trans (assembled_past read)

theorem number_past {c after : Cursor} {n : Number} (read : number c = .ok (n, after)) :
    Past c after := by
  unfold number at read
  split at read
  · next more next => exact (past_advance next (by decide)).trans (numberFrom_past read)
  · exact numberFrom_past read

private theorem not_isNumeric_of_ends {x : Char} {more : List Char} (ends : Ends (x :: more)) :
    isNumeric x = false := by
  rcases ends with rfl | rfl | rfl <;> decide

theorem Past.left_of_numeric {text rest : List Char} {i : Nat} {after : Cursor}
    (numeric : ∀ x ∈ text, isNumeric x = true) (ends : Ends rest)
    (past : Past ⟨text ++ rest, i⟩ after) :
    after.rest = rest ∨ ∃ x more, after.rest = x :: more ∧ isNumeric x = true := by
  obtain ⟨taken, read, consumed⟩ := past
  rcases List.append_eq_append_iff.mp read.rest with ⟨left, split, behind⟩ | ⟨left, split, behind⟩
  · cases left with
    | nil => exact .inl behind.symm
    | cons x more =>
      rw [behind, List.cons_append] at ends
      have other := not_isNumeric_of_ends ends
      have same := consumed x (by simp [split])
      rw [other] at same
      cases same
  · cases left with
    | nil => exact .inl (by simpa using behind)
    | cons x more => exact .inr ⟨x, more ++ rest, behind, numeric x (by simp [split])⟩

private theorem isNumeric_digits (n : Nat) : ∀ x ∈ Nat.toDigits 10 n, isNumeric x = true := by
  intro x mem
  simp [isNumeric, isDigit_toDigits n x mem]

private theorem isNumeric_positional (d : Decimal.Digits) :
    ∀ x ∈ (Decimal.positional d).toList, isNumeric x = true := by
  have digits := isNumeric_digits d.digits
  intro x mem
  dsimp only [Decimal.positional] at mem
  split at mem
  · rw [String.toList_ofList, List.mem_append] at mem
    rcases mem with mem | mem
    · exact digits x mem
    · rw [List.eq_of_mem_replicate mem]
      decide
  · split at mem
    · simp only [String.toList_ofList, List.mem_cons, List.mem_append, List.cons_append] at mem
      rcases mem with rfl | rfl | mem | mem
      · decide
      · decide
      · rw [List.eq_of_mem_replicate mem]
        decide
      · exact digits x mem
    · simp only [String.toList_ofList, List.mem_cons, List.mem_append] at mem
      rcases mem with mem | rfl | mem
      · exact digits x (List.mem_of_mem_take mem)
      · decide
      · exact digits x (List.mem_of_mem_drop mem)

private theorem isNumeric_withPoint {s : String} (numeric : ∀ x ∈ s.toList, isNumeric x = true) :
    ∀ x ∈ (Decimal.withPoint s).toList, isNumeric x = true := by
  intro x mem
  unfold Decimal.withPoint at mem
  split at mem
  · exact numeric x mem
  · have fraction : ".0".toList.all isNumeric = true := by decide
    rw [String.toList_append, List.mem_append] at mem
    rcases mem with mem | mem
    · exact numeric x mem
    · exact List.all_eq_true.mp fraction x mem

private theorem isNumeric_scientific (d : Decimal.Digits) :
    ∀ x ∈ (Decimal.scientific d).toList, isNumeric x = true := by
  have digits := isNumeric_digits d.digits
  have exponent : "e".toList.all isNumeric = true := by decide
  have signs : ("-".toList ++ "+".toList).all isNumeric = true := by decide
  intro x mem
  simp only [Decimal.scientific, String.toList_append, List.mem_append, String.toList_ofList] at mem
  rcases mem with ((mem | mem) | mem) | mem
  · split at mem
    · next first second rest same =>
      simp only [same, List.mem_cons] at digits mem
      rcases mem with rfl | rfl | mem
      · exact digits x (.inl rfl)
      · decide
      · exact digits x (.inr mem)
    · exact digits x mem
  · exact List.all_eq_true.mp exponent x mem
  · split at mem
    · exact List.all_eq_true.mp signs x (List.mem_append_left _ mem)
    · exact List.all_eq_true.mp signs x (List.mem_append_right _ mem)
  · exact isNumeric_digits _ x (by simpa using mem)

theorem isNumeric_jsonText {x : Binary64} {s : String} (written : Decimal.jsonText? x = some s) :
    ∀ y ∈ s.toList, isNumeric y = true := by
  have unsigned : ∀ d, ∀ y ∈ (Decimal.jsonDigits d).toList, isNumeric y = true := by
    intro d
    unfold Decimal.jsonDigits
    dsimp only
    split
    · exact isNumeric_withPoint (isNumeric_positional d)
    · exact isNumeric_scientific d
  have zero : "0.0".toList.all isNumeric = true := by decide
  have minus : "-".toList.all isNumeric = true := by decide
  have signed : ∀ (negative : Bool) (t : String), (∀ y ∈ t.toList, isNumeric y = true) →
      ∀ y ∈ (Decimal.signed negative t).toList, isNumeric y = true := by
    intro negative t numeric y mem
    unfold Decimal.signed at mem
    split at mem
    · rw [String.toList_append, List.mem_append] at mem
      rcases mem with mem | mem
      · exact List.all_eq_true.mp minus y mem
      · exact numeric y mem
    · exact numeric y mem
  unfold Decimal.jsonText? at written
  split at written
  · next negative m e _ =>
    obtain rfl := Option.some.inj written
    apply signed
    split
    · exact List.all_eq_true.mp zero
    · exact unsigned _
  · cases written

theorem jsonText_ne_nil {x : Binary64} {s : String} (written : Decimal.jsonText? x = some s) :
    s.toList ≠ [] := by
  have pointed : ∀ t, (Decimal.withPoint t).toList ≠ [] := by
    intro t
    unfold Decimal.withPoint
    split
    · next point =>
      intro empty
      rw [empty] at point
      cases point
    · simp
  have signed : ∀ (negative : Bool) (t : String), t.toList ≠ [] →
      (Decimal.signed negative t).toList ≠ [] := by
    intro negative t some
    unfold Decimal.signed
    split
    · simp
    · exact some
  unfold Decimal.jsonText? at written
  split at written
  · obtain rfl := Option.some.inj written
    apply signed
    split
    · simp
    · unfold Decimal.jsonDigits
      dsimp only
      split
      · exact pointed _
      · simp [Decimal.scientific]
  · cases written

end RubyScaffold.Json
