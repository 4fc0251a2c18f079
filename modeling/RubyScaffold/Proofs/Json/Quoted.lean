import RubyScaffold.Json.Text
import RubyScaffold.Json.Writer

/-!
Quoted text that was written is read back, whatever characters it holds.
-/

set_option autoImplicit false

namespace RubyScaffold.Json

open Text (Cursor byteLength)

private theorem hexDigit?_hexChar {n : Nat} (small : n < 16) : hexDigit? (hexChar n) = some n := by
  have all : ∀ m : Fin 16, hexDigit? (hexChar m) = some m.val := by decide
  exact all ⟨n, small⟩

def Plain (c : Char) : Prop :=
  c ≠ '"' ∧ c ≠ '\\' ∧ ¬ c.toNat < 0x20

private theorem escapedChar_cases (c : Char) :
    (∃ mark, escapedChar c = ['\\', mark] ∧ mark ≠ 'u' ∧ shortEscape? mark = some c) ∨
    (c.toNat < 0x20 ∧
      escapedChar c = ['\\', 'u', '0', '0', hexChar (c.toNat / 16), hexChar (c.toNat % 16)]) ∨
    (Plain c ∧ escapedChar c = [c]) := by
  by_cases quote : c = '"'
  · exact .inl ⟨'"', by simp [escapedChar, quote], by decide, by rw [quote]; rfl⟩
  by_cases slash : c = '\\'
  · exact .inl ⟨'\\', by simp [escapedChar, slash], by decide, by rw [slash]; rfl⟩
  by_cases back : c = '\x08'
  · exact .inl ⟨'b', by simp [escapedChar, back], by decide, by rw [back]; rfl⟩
  by_cases feed : c = '\x0c'
  · exact .inl ⟨'f', by simp [escapedChar, feed], by decide, by rw [feed]; rfl⟩
  by_cases newline : c = '\n'
  · exact .inl ⟨'n', by simp [escapedChar, newline], by decide, by rw [newline]; rfl⟩
  by_cases carriage : c = '\r'
  · exact .inl ⟨'r', by simp [escapedChar, carriage], by decide, by rw [carriage]; rfl⟩
  by_cases tab : c = '\t'
  · exact .inl ⟨'t', by simp [escapedChar, tab], by decide, by rw [tab]; rfl⟩
  by_cases control : c.toNat < 0x20
  · refine .inr (.inl ⟨control, ?_⟩)
    simp [escapedChar, quote, slash, back, feed, newline, carriage, tab, control]
  · refine .inr (.inr ⟨⟨quote, slash, control⟩, ?_⟩)
    simp [escapedChar, quote, slash, back, feed, newline, carriage, tab, control]

private theorem fourHex_control {n : Nat} (small : n < 0x20) (rest : List Char) (i : Nat) :
    ∃ after, fourHex ⟨'0' :: '0' :: hexChar (n / 16) :: hexChar (n % 16) :: rest, i⟩ =
      .ok (n, after) ∧ after.rest = rest := by
  have upper : hexDigit? (hexChar (n / 16)) = some (n / 16) := hexDigit?_hexChar (by omega)
  have lower : hexDigit? (hexChar (n % 16)) = some (n % 16) := hexDigit?_hexChar (by omega)
  have zero : hexDigit? '0' = some 0 := by decide
  have enough : ¬ Cursor.stop ⟨'0' :: '0' :: hexChar (n / 16) :: hexChar (n % 16) :: rest, i⟩ <
      i + 4 := by
    have one := Char.utf8Size_pos (hexChar (n / 16))
    have two := Char.utf8Size_pos (hexChar (n % 16))
    have digit : Char.utf8Size '0' = 1 := by decide
    simp only [Cursor.stop, byteLength, digit]
    omega
  have value : n / 16 * 16 + n % 16 = n := by omega
  refine ⟨Cursor.advance ⟨'0' :: '0' :: hexChar (n / 16) :: hexChar (n % 16) :: rest, i⟩ 4, ?_, rfl⟩
  simp only [fourHex, if_neg enough]
  simp [upper, lower, zero, value]

private theorem escape_control {n : Nat} (small : n < 0x20) (rest : List Char) (i : Nat) :
    ∃ after, escape ⟨'u' :: '0' :: '0' :: hexChar (n / 16) :: hexChar (n % 16) :: rest, i⟩ =
      .ok (Char.ofNat n, after) ∧ after.rest = rest := by
  obtain ⟨after, read, behind⟩ := fourHex_control small rest (i + Char.utf8Size 'u')
  refine ⟨after, ?_, behind⟩
  have low : ¬ (0xdc00 ≤ n ∧ n ≤ 0xdfff) := by omega
  have single : n < 0xd800 ∨ 0xdbff < n := by omega
  simp [escape, Cursor.next?, unicodeEscape, read, bind, Except.bind, low, single]

private theorem quotedFrom_escapedChar (fuel : Nat) (found : List Char) (c : Char)
    (rest : List Char) (i : Nat) :
    ∃ j, quotedFrom (fuel + 1) found ⟨escapedChar c ++ rest, i⟩ =
      quotedFrom fuel (c :: found) ⟨rest, j⟩ := by
  obtain ⟨mark, written, noDigits, short⟩ | ⟨control, written⟩ | ⟨⟨noQuote, noSlash, visible⟩,
    written⟩ := escapedChar_cases c
  · refine ⟨i + Char.utf8Size '\\' + mark.utf8Size, ?_⟩
    rw [written]
    simp [quotedFrom, Cursor.next?, escape, noDigits, short, bind, Except.bind]
  · obtain ⟨⟨_, j⟩, read, rfl⟩ := escape_control control rest (i + Char.utf8Size '\\')
    refine ⟨j, ?_⟩
    rw [written]
    simp [quotedFrom, Cursor.next?, read, bind, Except.bind]
  · refine ⟨i + c.utf8Size, ?_⟩
    rw [written]
    simp [quotedFrom, Cursor.next?, noQuote, noSlash, visible]

private theorem quotedFrom_escaped (cs rest found : List Char) {fuel : Nat}
    (enough : cs.length < fuel) (i : Nat) :
    ∃ after, quotedFrom fuel found ⟨cs.flatMap escapedChar ++ '"' :: rest, i⟩ =
      .ok (found.reverse ++ cs, after) ∧ after.rest = rest := by
  induction cs generalizing fuel found i with
  | nil =>
    obtain ⟨fuel, rfl⟩ : ∃ n, fuel = n + 1 := ⟨fuel - 1, by simp at enough; omega⟩
    exact ⟨_, by simp [quotedFrom, Cursor.next?]; rfl, rfl⟩
  | cons c cs ih =>
    obtain ⟨fuel, rfl⟩ : ∃ n, fuel = n + 1 := ⟨fuel - 1, by simp at enough; omega⟩
    have fewer : cs.length < fuel := by simpa using enough
    obtain ⟨j, step⟩ :=
      quotedFrom_escapedChar fuel found c (cs.flatMap escapedChar ++ '"' :: rest) i
    obtain ⟨after, read, behind⟩ := ih (c :: found) fewer j
    refine ⟨after, ?_, behind⟩
    rw [List.flatMap_cons, List.append_assoc, step, read]
    simp

private theorem length_le_length_escaped (cs : List Char) :
    cs.length ≤ (cs.flatMap escapedChar).length := by
  induction cs with
  | nil => simp
  | cons c cs ih =>
    have some : 0 < (escapedChar c).length := by
      obtain ⟨_, written, _⟩ | ⟨_, written⟩ | ⟨_, written⟩ := escapedChar_cases c <;>
        simp [written]
    simp only [List.flatMap_cons, List.length_append, List.length_cons]
    omega

@[simp] theorem toList_writeText (s : String) :
    (writeText s).toList = '"' :: s.toList.flatMap escapedChar ++ ['"'] := by
  simp [writeText]

/-- A text is read back from what was written for it. -/
theorem quoted_writeText (s : String) (rest : List Char) (i : Nat) :
    ∃ after, quoted ⟨s.toList.flatMap escapedChar ++ '"' :: rest, i⟩ = .ok (s, after) ∧
      after.rest = rest := by
  have enough : s.toList.length < (s.toList.flatMap escapedChar ++ '"' :: rest).length + 1 := by
    have shorter := length_le_length_escaped s.toList
    simp only [List.length_append]
    omega
  obtain ⟨after, read, behind⟩ := quotedFrom_escaped s.toList rest [] enough i
  refine ⟨after, ?_, behind⟩
  rw [quoted, read]
  simp [bind, Except.bind]

end RubyScaffold.Json
