import RubyScaffold.Json.Reader
import RubyScaffold.Proofs.Json.NumericText
import RubyScaffold.Proofs.Json.Quoted

/-!
One step of the reader on text that was written: what it does at the first character of a value,
at an item of a list and at a member of a table.
-/

set_option autoImplicit false

namespace RubyScaffold.Json

open Text (Cursor)

/-- Texts with a comma before each, but for the first if so wished. -/
def chained : Bool → List String → List Char
  | _, [] => []
  | true, s :: rest => s.toList ++ chained false rest
  | false, s :: rest => ',' :: s.toList ++ chained false rest

theorem chained_append (first : Bool) (ss ts : List String) :
    chained first (ss ++ ts) = chained first ss ++ chained (first && ss.isEmpty) ts := by
  induction ss generalizing first with
  | nil => simp [chained]
  | cons s ss ih =>
    cases first <;> simp [chained, ih]

private theorem toList_intercalate_comma (ss : List String) :
    (String.intercalate "," ss).toList = chained true ss := by
  induction ss with
  | nil => rfl
  | cons s ss ih =>
    cases ss with
    | nil => simp [chained]
    | cons t ts =>
      rw [String.intercalate_cons_cons, String.toList_append, String.toList_append, ih]
      simp [chained]

@[simp] theorem skipSpace_of_head {x : Char} (mark : isSpace x = false) (rest : List Char)
    (i : Nat) : skipSpace ⟨x :: rest, i⟩ = ⟨x :: rest, i⟩ := by
  simp [skipSpace, Cursor.skip, Cursor.span, mark, Text.byteLength]

@[simp] theorem advance_one (x : Char) (rest : List Char) (i : Nat) :
    Cursor.advance ⟨x :: rest, i⟩ 1 = ⟨rest, i + x.utf8Size⟩ := by
  simp [Cursor.advance, Text.byteLength]

def listFrom (c : Cursor) : List JsonTree × Except (Option Fault) Cursor → JsonTree × Option Cursor
  | (found, .ok after) => (.list (placeTo c after) found none, some after)
  | (found, .error f) => (.list (openPlace c) found f, none)

def tableFrom (c : Cursor) : List Member × Except (Option Fault) Cursor → JsonTree × Option Cursor
  | (found, .ok after) => (.table (placeTo c after) found none, some after)
  | (found, .error f) => (.table (openPlace c) found f, none)

/-- An item and the others behind it, if reading got behind it. -/
def itemAnd (others : Cursor → List JsonTree × Except (Option Fault) Cursor) :
    JsonTree × Option Cursor → List JsonTree × Except (Option Fault) Cursor
  | (item, none) => ([item], .error none)
  | (item, some after) => (item :: (others after).1, (others after).2)

def memberAnd (key : String) (place : Place)
    (others : Cursor → List Member × Except (Option Fault) Cursor) :
    JsonTree × Option Cursor → List Member × Except (Option Fault) Cursor
  | (item, none) => ([(key, place, item)], .error none)
  | (item, some after) => ((key, place, item) :: (others after).1, (others after).2)

theorem isSpace_of_isNumeric {x : Char} (numeric : isNumeric x = true) : isSpace x = false := by
  cases space : isSpace x with
  | false => rfl
  | true =>
    simp only [isSpace, Bool.or_eq_true, decide_eq_true_eq] at space
    rcases space with ((rfl | rfl) | rfl) | rfl <;> exact absurd numeric (by decide)

theorem isNumeric_of_leading {x : Char} (leading : x = '-' ∨ x.isDigit = true) :
    isNumeric x = true := by
  rcases leading with rfl | digit
  · decide
  · simp [isNumeric, digit]

theorem ends_chained (ss : List String) {tail : List Char} (ends : Ends tail) :
    Ends (chained false ss ++ tail) := by
  cases ss with
  | nil => exact ends
  | cons s ss => exact .inl rfl

theorem length_chained_cons (first : Bool) (s : String) (ss : List String) :
    s.toList.length + (chained false ss).length ≤ (chained first (s :: ss)).length := by
  cases first <;> simp [chained]

section Heads

variable {asked : Interest} (wanted : asked ≠ .nothing) (fuel depth : Nat) (rest : List Char)
  (i : Nat)

include wanted

theorem value_quote :
    value (fuel + 1) depth asked ⟨'"' :: rest, i⟩ =
      leaf ⟨'"' :: rest, i⟩ Tree.text (quoted ⟨rest, i + Char.utf8Size '"'⟩) := by
  have mark : isSpace '"' = false := by decide
  cases asked with
  | nothing => exact absurd rfl wanted
  | everything => simp [value, mark]
  | parts => simp [value, mark]

theorem value_null :
    ∃ p k, value (fuel + 1) depth asked ⟨'n' :: 'u' :: 'l' :: 'l' :: rest, i⟩ =
      (.null p, some ⟨rest, k⟩) := by
  have mark : isSpace 'n' = false := by decide
  cases asked with
  | nothing => exact absurd rfl wanted
  | everything => simp [value, mark, leaf, word, Cursor.next?, Except.map]
  | parts => simp [value, mark, leaf, word, Cursor.next?, Except.map]

theorem value_true :
    ∃ p k, value (fuel + 1) depth asked ⟨'t' :: 'r' :: 'u' :: 'e' :: rest, i⟩ =
      (.bool p true, some ⟨rest, k⟩) := by
  have mark : isSpace 't' = false := by decide
  cases asked with
  | nothing => exact absurd rfl wanted
  | everything => simp [value, mark, leaf, word, Cursor.next?, Except.map]
  | parts => simp [value, mark, leaf, word, Cursor.next?, Except.map]

theorem value_false :
    ∃ p k, value (fuel + 1) depth asked ⟨'f' :: 'a' :: 'l' :: 's' :: 'e' :: rest, i⟩ =
      (.bool p false, some ⟨rest, k⟩) := by
  have mark : isSpace 'f' = false := by decide
  cases asked with
  | nothing => exact absurd rfl wanted
  | everything => simp [value, mark, leaf, word, Cursor.next?, Except.map]
  | parts => simp [value, mark, leaf, word, Cursor.next?, Except.map]

theorem value_list {depth : Nat} (room : 0 < depth) :
    value (fuel + 1) depth asked ⟨'[' :: rest, i⟩ =
      listFrom ⟨'[' :: rest, i⟩
        (items fuel (depth - 1) asked 0 ⟨rest, i + Char.utf8Size '['⟩) := by
  have mark : isSpace '[' = false := by decide
  have deep : depth ≠ 0 := by omega
  cases asked with
  | nothing => exact absurd rfl wanted
  | everything => simp [value, mark, deep]; rfl
  | parts => simp [value, mark, deep]; rfl

private theorem value_table {depth : Nat} (room : 0 < depth) :
    value (fuel + 1) depth asked ⟨'{' :: rest, i⟩ =
      tableFrom ⟨'{' :: rest, i⟩
        (members fuel (depth - 1) asked true ⟨rest, i + Char.utf8Size '{'⟩) := by
  have mark : isSpace '{' = false := by decide
  have deep : depth ≠ 0 := by omega
  cases asked with
  | nothing => exact absurd rfl wanted
  | everything => simp [value, mark, deep]; rfl
  | parts => simp [value, mark, deep]; rfl

theorem value_numeric {x : Char} (numeric : isNumeric x = true) :
    value (fuel + 1) depth asked ⟨x :: rest, i⟩ =
      if x = '-' ∨ x.isDigit then
        leaf ⟨x :: rest, i⟩
          (fun p n => match n with | .integer i => .integer p i | .float y => .float p y)
          (number ⟨x :: rest, i⟩)
      else (.unreadable (openPlace ⟨x :: rest, i⟩) (faultAt ⟨x :: rest, i⟩ .noValue), none) := by
  unfold value
  rw [skipSpace_of_head (isSpace_of_isNumeric numeric)]
  dsimp only
  split
  case h_1 => exact absurd rfl wanted
  case h_2 same => cases same
  case h_9 same =>
    cases same
    rfl
  all_goals
    next same =>
      cases same
      exact absurd numeric (by decide)

end Heads

theorem items_close (fuel depth : Nat) (asked : Interest) (n : Nat) (rest : List Char) (i : Nat) :
    items (fuel + 1) depth asked n ⟨']' :: rest, i⟩ =
      ([], .ok ⟨rest, i + Char.utf8Size ']'⟩) := by
  have mark : isSpace ']' = false := by decide
  simp [items, mark]

theorem members_close (fuel depth : Nat) (asked : Interest) (first : Bool) (rest : List Char)
    (i : Nat) :
    members (fuel + 1) depth asked first ⟨'}' :: rest, i⟩ =
      ([], .ok ⟨rest, i + Char.utf8Size '}'⟩) := by
  have mark : isSpace '}' = false := by decide
  simp [members, mark]

theorem items_step (fuel depth : Nat) (asked : Interest) (n : Nat) {s : String} {x : Char}
    {more : List Char} (head : s.toList = x :: more) (mark : isSpace x = false) (noEnd : x ≠ ']')
    (ss : List String) (tail : List Char) (i : Nat) :
    ∃ j, items (fuel + 1) depth asked n ⟨chained (n == 0) (s :: ss) ++ tail, i⟩ =
      itemAnd (items fuel depth asked (n + 1))
        (value fuel depth (asked.item n) ⟨s.toList ++ (chained false ss ++ tail), j⟩) := by
  have comma : isSpace ',' = false := by decide
  obtain ⟨body, bodyIs⟩ : ∃ body, more ++ (chained false ss ++ tail) = body := ⟨_, rfl⟩
  have text : s.toList ++ (chained false ss ++ tail) = x :: body := by rw [head, ← bodyIs]; rfl
  rw [text]
  cases n with
  | zero =>
    have start : chained (0 == 0) (s :: ss) ++ tail = x :: body := by
      rw [← text]
      simp [chained]
    rw [start]
    refine ⟨i, ?_⟩
    simp [items, skipSpace_of_head mark]
    rfl
  | succ n =>
    have start : chained (n + 1 == 0) (s :: ss) ++ tail = ',' :: x :: body := by
      rw [← text]
      simp [chained]
    rw [start]
    refine ⟨i + Char.utf8Size ',', ?_⟩
    simp [items, skipSpace_of_head mark, skipSpace_of_head comma, noEnd]
    rfl

theorem members_step (fuel depth : Nat) (asked : Interest) (first : Bool) (key s : String)
    (ss : List String) (tail : List Char) (i : Nat) :
    ∃ place j, members (fuel + 1) depth asked first
        ⟨chained first ((writeText key ++ ":" ++ s) :: ss) ++ tail, i⟩ =
      memberAnd key place (members fuel depth asked false)
        (value fuel depth (asked.member key) ⟨s.toList ++ (chained false ss ++ tail), j⟩) := by
  have comma : isSpace ',' = false := by decide
  have colon : isSpace ':' = false := by decide
  have quote : isSpace '"' = false := by decide
  obtain ⟨body, bodyIs⟩ : ∃ body, s.toList ++ (chained false ss ++ tail) = body := ⟨_, rfl⟩
  rw [bodyIs]
  cases first with
  | true =>
    have text : chained true ((writeText key ++ ":" ++ s) :: ss) ++ tail =
        '"' :: (key.toList.flatMap escapedChar ++ '"' :: ':' :: body) := by
      simp [chained, ← bodyIs]
    obtain ⟨⟨behind, j⟩, read, rest⟩ := quoted_writeText key (':' :: body) (i + Char.utf8Size '"')
    obtain rfl : behind = ':' :: body := rest
    rw [text]
    refine ⟨placeTo ⟨'"' :: (key.toList.flatMap escapedChar ++ '"' :: ':' :: body), i⟩
      ⟨':' :: body, j⟩, j + Char.utf8Size ':', ?_⟩
    simp only [members, skipSpace_of_head quote, if_true, advance_one, read,
      skipSpace_of_head colon]
    rfl
  | false =>
    have text : chained false ((writeText key ++ ":" ++ s) :: ss) ++ tail =
        ',' :: '"' :: (key.toList.flatMap escapedChar ++ '"' :: ':' :: body) := by
      simp [chained, ← bodyIs]
    obtain ⟨⟨behind, j⟩, read, rest⟩ := quoted_writeText key (':' :: body)
      (i + Char.utf8Size ',' + Char.utf8Size '"')
    obtain rfl : behind = ':' :: body := rest
    rw [text]
    refine ⟨placeTo ⟨'"' :: (key.toList.flatMap escapedChar ++ '"' :: ':' :: body),
      i + Char.utf8Size ','⟩ ⟨':' :: body, j⟩, j + Char.utf8Size ':', ?_⟩
    simp only [members, skipSpace_of_head quote, skipSpace_of_head comma, advance_one, read,
      skipSpace_of_head colon]
    rfl

theorem enough_of_cons {first : Bool} {key s : String} {ss : List String} {tail : List Char}
    {fuel : Nat} (enough : 2 * ((chained first ((writeText key ++ ":" ++ s) :: ss)).length +
      tail.length) + 2 ≤ fuel + 1) :
    2 * (s.toList.length + (chained false ss ++ tail).length) + 1 ≤ fuel ∧
      2 * ((chained false ss).length + tail.length) + 2 ≤ fuel := by
  have longer := length_chained_cons first (writeText key ++ ":" ++ s) ss
  have quotes : 0 < (writeText key).toList.length := by simp
  simp only [String.toList_append, List.length_append] at longer ⊢
  omega

theorem toList_write_list (vs : List Value) :
    (write (.list vs)).toList = '[' :: (chained true (writeItems vs) ++ [']']) := by
  rw [write, String.toList_append, String.toList_append, toList_intercalate_comma]
  rfl

theorem toList_write_table (ms : List (String × Value)) :
    (write (.table ms)).toList = '{' :: (chained true (writeMembers ms) ++ ['}']) := by
  rw [write, String.toList_append, String.toList_append, toList_intercalate_comma]
  rfl

/-- What was written for a table is read by reading its members, and the fuel lasts. -/
theorem value_writeTable (ms : List (String × Value)) {asked : Interest}
    (wanted : asked ≠ .nothing) {depth : Nat} (room : 0 < depth) (rest : List Char) {fuel : Nat}
    (enough : 2 * ((write (.table ms)).toList.length + rest.length) + 1 ≤ fuel) (i : Nat) :
    ∃ c left j, 2 * ((chained true (writeMembers ms)).length + ('}' :: rest).length) + 2 ≤ left ∧
      value fuel depth asked ⟨(write (.table ms)).toList ++ rest, i⟩ =
        tableFrom c (members left (depth - 1) asked true
          ⟨chained true (writeMembers ms) ++ '}' :: rest, j⟩) := by
  obtain ⟨fuel, rfl⟩ : ∃ n, fuel = n + 1 := ⟨fuel - 1, by omega⟩
  have text : (write (.table ms)).toList ++ rest =
      '{' :: (chained true (writeMembers ms) ++ '}' :: rest) := by
    simp [toList_write_table]
  rw [toList_write_table] at enough
  simp only [List.length_cons, List.length_append, List.length_nil] at enough
  rw [text]
  refine ⟨_, fuel, _, ?_, value_table wanted fuel _ i room⟩
  rw [List.length_cons]
  omega

theorem head_toString (i : Int) :
    ∃ x more, (toString i).toList = x :: more ∧ (x = '-' ∨ x.isDigit = true) := by
  rw [toList_toString_int]
  split
  · exact ⟨'-', _, rfl, .inl rfl⟩
  · cases digits : Nat.toDigits 10 i.natAbs with
    | nil => exact absurd digits Nat.toDigits_ne_nil
    | cons d ds => exact ⟨d, ds, rfl, .inr (isDigit_toDigits i.natAbs d (by simp [digits]))⟩

end RubyScaffold.Json
