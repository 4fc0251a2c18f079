import RubyScaffold.Proofs.Manifest.FormatsAgree
import RubyScaffold.Proofs.Text.Positions

/-!
The labels of JSON texts that cannot be read as a manifest. The reader tells the line and the column
where it stopped, and the label is put where the lines of the text have that place. A text that was
read to the end of its last line has no such place.
-/

set_option autoImplicit false

namespace RubyScaffold.Manifest

open Text (lineFeed)

variable {format : ManifestFormat} {text source : String}

private theorem decode_of_parse_error {wrong : ManifestFormat} {name message : String}
    {span : Option (Nat × Nat)}
    (refused : parse format text source = .error (.parse wrong name message span)) :
    decode format text source = .error (.parse wrong name message span) := by
  rw [parse_eq] at refused
  cases decoded : decode format text source with
  | error e =>
    rw [decoded] at refused
    exact refused
  | ok m =>
    rw [decoded] at refused
    cases found : m.cls.fault? <;> simp [found, ClassFault.locate] at refused

/-- What an error about a JSON text tells, with the text taken apart where the reader stopped: the
lines before, what was read of the next line, and what was not read. -/
private theorem jsonError_of_read (text source : String) (m : Mismatch Json.Place Json.Fault) :
    ∃ front line rest, Text.bytes text = front ++ line ++ rest ∧
      (front ++ line).length = min (Json.mismatchIndex m) (Text.bytes text).length ∧
      Text.Closed front ∧ lineFeed ∉ line ∧
      jsonError text source m = .parse .json source
        (m.message Json.floatText (·.flaw.message) ++ " at line " ++
          toString (front.count lineFeed + 1) ++ " column " ++ toString line.length)
        (if line ++ rest = [] then none else some (front.length + (line.length - 1), 0)) := by
  obtain ⟨front, line, read, closed, free, column⟩ :=
    Text.exists_closed_append ((Text.bytes text).take (Json.mismatchIndex m))
  have whole : Text.bytes text =
      front ++ line ++ (Text.bytes text).drop (Json.mismatchIndex m) := by
    rw [← read, List.take_append_drop]
  have size : (front ++ line).length = min (Json.mismatchIndex m) (Text.bytes text).length := by
    rw [← read, List.length_take]
  have lines : Text.lineAt (Text.bytes text) (Json.mismatchIndex m) =
      front.count lineFeed + 1 := by
    rw [Text.lineAt, read, List.count_append, List.count_eq_zero_of_not_mem free, Nat.add_zero]
  have into : Text.bytesIntoLine (Text.bytes text) (Json.mismatchIndex m) = line.length :=
    column.symm
  have place := Text.offsetOf_append closed free ((Text.bytes text).drop (Json.mismatchIndex m))
  rw [← whole] at place
  refine ⟨front, line, _, whole, size, closed, free, ?_⟩
  simp only [jsonError, Json.located, lines, into, place]
  split <;> rfl

/-- The error for a JSON text that is no manifest tells what was read when it was noticed: how many
lines, and how many bytes of the next one. Its label stands on the last of those bytes, or where the
line starts if there are none. It has no label exactly if the text was read up to the end of a line
and nothing comes after that. -/
theorem label_of_syntax_error {wrong : ManifestFormat} {name message : String}
    {span : Option (Nat × Nat)}
    (refused : parse .json text source = .error (.parse wrong name message span)) :
    wrong = .json ∧ name = source ∧
    ∃ m front line rest, decodeJson text = .error m ∧ Text.bytes text = front ++ line ++ rest ∧
      (front ++ line).length = min (Json.mismatchIndex m) (Text.bytes text).length ∧
      Text.Closed front ∧ lineFeed ∉ line ∧
      message = m.message Json.floatText (·.flaw.message) ++ " at line " ++
        toString (front.count lineFeed + 1) ++ " column " ++ toString line.length ∧
      (span = none ↔ line = [] ∧ rest = []) ∧
      ∀ offset length, span = some (offset, length) →
        offset = front.length + (line.length - 1) ∧ length = 0 ∧
          offset < (Text.bytes text).length := by
  obtain ⟨m, unread, told⟩ := mapError_eq_error.mp (decode_of_parse_error refused)
  obtain ⟨front, line, rest, whole, size, closed, free, saying⟩ :=
    jsonError_of_read text source m
  rw [saying, ManifestError.parse.injEq] at told
  obtain ⟨rfl, rfl, rfl, rfl⟩ := told
  refine ⟨rfl, rfl, m, front, line, rest, unread, whole, size, closed, free, rfl, ?_, ?_⟩
  · rw [← List.append_eq_nil_iff]
    split
    · next none => simp [none]
    · next more => simp [more]
  · intro offset length label
    split at label
    · cases label
    · next more =>
      cases label
      -- the place is the last byte read of the line, or else the first one that was not read
      have remains : 0 < (line ++ rest).length := List.length_pos_of_ne_nil more
      refine ⟨rfl, rfl, ?_⟩
      rw [whole]
      simp only [List.length_append] at remains ⊢
      omega

private theorem parse_of_unread {m : Mismatch Json.Place Json.Fault}
    (unread : decodeJson text = .error m) :
    parse .json text source = .error (jsonError text source m) := by
  rw [parse, decode, unread]
  rfl

def openText : String :=
  "\x7b\"class\":\n\x7d"

theorem label_of_syntax_error_open :
    parse .json openText "rbgen.json" = .error (.parse .json "rbgen.json"
        "expected value at line 2 column 1" (some (10, 0))) ∧
      10 < (Text.bytes openText).length := by
  have unread : decodeJson openText = .error (.unreadable ⟨.noValue, 11⟩) := by cbv
  have refused : parse .json openText "rbgen.json" = .error (.parse .json "rbgen.json"
      "expected value at line 2 column 1" (some (10, 0))) :=
    (parse_of_unread unread).trans (congrArg Except.error (by rfl))
  obtain ⟨-, -, _, _, _, _, -, -, -, -, -, -, -, inside⟩ := label_of_syntax_error refused
  exact ⟨refused, (inside 10 0 rfl).2.2⟩

/-- A text that ends where a line starts, and was read up to there, has no label. -/
theorem no_label_behind_last_line :
    parse .json "" "rbgen.json" = .error (.parse .json "rbgen.json"
        "EOF while parsing a value at line 1 column 0" none) ∧
      parse .json "\x7b\n" "rbgen.json" = .error (.parse .json "rbgen.json"
        "EOF while parsing an object at line 2 column 0" none) := by
  have unread : decodeJson "" = .error (.unreadable ⟨.endInValue, 0⟩) := by cbv
  have broken : decodeJson "\x7b\n" = .error (.unreadable ⟨.endInObject, 2⟩) := by cbv
  exact ⟨(parse_of_unread unread).trans (congrArg Except.error (by rfl)),
    (parse_of_unread broken).trans (congrArg Except.error (by rfl))⟩

end RubyScaffold.Manifest
