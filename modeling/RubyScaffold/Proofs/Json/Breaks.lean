import RubyScaffold.Proofs.Json.Reading

/-!
Text that the reader may not read to its end: how far it gets with a binary number, and what the
tree of a table still holds when its last member breaks off.
-/

set_option autoImplicit false

namespace RubyScaffold.Json

open Text (Cursor)

/-- Of a binary number that was written the reader makes what it can: it may stop at it, or before
its end. -/
theorem value_float {x : Binary64} {s : String} (written : Decimal.jsonText? x = some s)
    {asked : Interest} (wanted : asked ≠ .nothing) {rest : List Char} (ends : Ends rest)
    (fuel depth i : Nat) :
    (∃ p f, value (fuel + 1) depth asked ⟨s.toList ++ rest, i⟩ = (.unreadable p f, none)) ∨
    ∃ t after, value (fuel + 1) depth asked ⟨s.toList ++ rest, i⟩ = (t, some after) ∧
      (after.rest = rest ∨ ∃ y more, after.rest = y :: more ∧ isNumeric y = true) := by
  have numeric := isNumeric_jsonText written
  cases text : s.toList with
  | nil => exact absurd text (jsonText_ne_nil written)
  | cons y more =>
    have first : isNumeric y = true := numeric y (by simp [text])
    rw [List.cons_append, value_numeric wanted fuel depth _ i first]
    split
    · cases read : number ⟨y :: (more ++ rest), i⟩ with
      | error f => exact .inl ⟨_, f, rfl⟩
      | ok found =>
        obtain ⟨n, after⟩ := found
        have past := number_past read
        rw [← List.cons_append, ← text] at past
        exact .inr ⟨_, after, rfl, past.left_of_numeric numeric ends⟩
    · exact .inl ⟨_, _, rfl⟩

theorem members_stuck {y : Char} (numeric : isNumeric y = true) (fuel depth : Nat)
    (asked : Interest) (more : List Char) (i : Nat) :
    ∃ f, members (fuel + 1) depth asked false ⟨y :: more, i⟩ = ([], .error (some f)) := by
  have mark := isSpace_of_isNumeric numeric
  have noComma : y ≠ ',' := by rintro rfl; exact absurd numeric (by decide)
  -- closes the branch of the closing brace, which `simp` looks for among the hypotheses
  have noEnd : y ≠ '}' := by rintro rfl; exact absurd numeric (by decide)
  exact ⟨_, by simp [members, mark, noComma]; rfl⟩

private theorem writeMembers_append (xs ys : List (String × Value)) :
    writeMembers (xs ++ ys) = writeMembers xs ++ writeMembers ys := by
  induction xs with
  | nil => rfl
  | cons x xs ih =>
    obtain ⟨key, v⟩ := x
    rw [List.cons_append, writeMembers, writeMembers, ih, List.cons_append]

theorem value_table_last (m : String × Value) {ms : List (String × Value)} {depth : Nat}
    {asked : Interest} (wanted : asked ≠ .nothing) (room : 0 < depth)
    (legible : LegibleMembers (m :: ms) (depth - 1) asked) (key : String) (v : Value)
    (rest : List Char) {fuel : Nat}
    (enough : 2 * ((write (.table (m :: ms ++ [(key, v)]))).toList.length + rest.length) + 1 ≤ fuel)
    (i : Nat) :
    ∃ place p found ending left j,
      (value fuel depth asked ⟨(write (.table (m :: ms ++ [(key, v)]))).toList ++ rest, i⟩).1 =
        .table place found ending ∧
      2 * ((write v).toList.length + ('}' :: rest).length) + 1 ≤ left ∧
      (key, p, (value left (depth - 1) (asked.member key)
        ⟨(write v).toList ++ '}' :: rest, j⟩).1) ∈ found := by
  obtain ⟨c, inside, k, enoughInside, table⟩ :=
    value_writeTable (m :: ms ++ [(key, v)]) wanted room rest enough i
  have split : chained true (writeMembers (m :: ms ++ [(key, v)])) =
      chained true (writeMembers (m :: ms)) ++
        chained false [writeText key ++ ":" ++ write v] := by
    rw [writeMembers_append, chained_append]
    rfl
  have ends : Ends (chained false [writeText key ++ ":" ++ write v] ++ '}' :: rest) :=
    ends_chained _ (.inr (.inr rfl))
  have enoughBefore : 2 * ((chained true (writeMembers (m :: ms))).length +
      (chained false [writeText key ++ ":" ++ write v] ++ '}' :: rest).length) + 2 ≤ inside := by
    rw [split] at enoughInside
    simp only [List.length_append] at enoughInside ⊢
    omega
  obtain ⟨found, left, j, enoughLeft, -, read⟩ :=
    members_write (m :: ms) legible true ends enoughBefore k
  obtain ⟨left, rfl⟩ : ∃ n, left = n + 1 := ⟨left - 1, by omega⟩
  obtain ⟨p, k, step⟩ :=
    members_step left (depth - 1) asked false key (write v) [] ('}' :: rest) j
  have enoughLast : 2 * ((write v).toList.length + ('}' :: rest).length) + 1 ≤ left := by
    rw [List.length_append] at enoughLeft
    exact (enough_of_cons enoughLeft).1
  rw [table, split, List.append_assoc, read, List.isEmpty_cons, Bool.and_false, step, chained,
    List.nil_append]
  cases own : value left (depth - 1) (asked.member key) ⟨(write v).toList ++ '}' :: rest, k⟩ with
  | mk t r =>
    cases r with
    | none =>
      exact ⟨_, p, _, _, left, k, rfl, enoughLast, by rw [own]; simp [memberAnd]⟩
    | some after =>
      rw [memberAnd]
      cases (members left (depth - 1) asked false after).2 with
      | ok behind => exact ⟨_, p, _, _, left, k, rfl, enoughLast, by rw [own]; simp⟩
      | error f => exact ⟨_, p, _, _, left, k, rfl, enoughLast, by rw [own]; simp⟩

end RubyScaffold.Json
