/-!
Reading bytes as UTF-8 text. Strict reading refuses ill-formed bytes; lenient reading puts one
replacement character for each maximal part of a sequence that could not be completed.
-/

set_option autoImplicit false

namespace RubyScaffold.Text

/-- The shape of a multi-byte sequence: the bounds of its second byte and how many bytes follow
the second. -/
structure LeadByte where
  low : UInt8
  high : UInt8
  more : Nat

/-- What a leading byte above ASCII asks for. The bounds of the second byte rule out overlong
forms, surrogates and numbers past the last code point. -/
def LeadByte.of? (b : UInt8) : Option LeadByte :=
  if 0xc2 ≤ b ∧ b ≤ 0xdf then some ⟨0x80, 0xbf, 0⟩
  else if b = 0xe0 then some ⟨0xa0, 0xbf, 1⟩
  else if 0xe1 ≤ b ∧ b ≤ 0xec then some ⟨0x80, 0xbf, 1⟩
  else if b = 0xed then some ⟨0x80, 0x9f, 1⟩
  else if 0xee ≤ b ∧ b ≤ 0xef then some ⟨0x80, 0xbf, 1⟩
  else if b = 0xf0 then some ⟨0x90, 0xbf, 2⟩
  else if 0xf1 ≤ b ∧ b ≤ 0xf3 then some ⟨0x80, 0xbf, 2⟩
  else if b = 0xf4 then some ⟨0x80, 0x8f, 2⟩
  else none

private def leadPayload (b : UInt8) (lead : LeadByte) : Nat :=
  b.toNat % Nat.pow 2 (5 - lead.more)

/-- A character, or the mark of a sequence that is not one, and the bytes taken. -/
def decodeStep (b : UInt8) (rest : List UInt8) : Option Char × List UInt8 :=
  if b < 0x80 then (some (Char.ofNat b.toNat), rest)
  else match LeadByte.of? b, rest with
    | none, _ => (none, rest)
    | some _, [] => (none, [])
    | some lead, second :: others =>
      if second < lead.low ∨ lead.high < second then (none, rest)
      else
        let tail := (others.take lead.more).takeWhile fun b => decide (0x80 ≤ b ∧ b ≤ 0xbf)
        let remaining := others.drop tail.length
        if tail.length < lead.more then (none, remaining)
        else
          let number := (second :: tail).foldl (fun n b => n * 64 + b.toNat % 64)
            (leadPayload b lead)
          (some (Char.ofNat number), remaining)

/-- Reading never gives back more bytes than it was given. -/
private theorem decodeStep_length (b : UInt8) (rest : List UInt8) :
    (decodeStep b rest).2.length ≤ rest.length := by
  unfold decodeStep
  split
  · exact Nat.le_refl _
  · split
    · exact Nat.le_refl _
    · exact Nat.le_refl _
    · split
      · exact Nat.le_refl _
      · simp only
        split
        · simp only [List.length_drop, List.length_cons]; omega
        · simp only [List.length_drop, List.length_cons]; omega

/-- The characters of some bytes, with `none` for each part that is no character. -/
def decodeAll : List UInt8 → List (Option Char)
  | [] => []
  | b :: rest =>
    (decodeStep b rest).1 :: decodeAll (decodeStep b rest).2
termination_by bs => bs.length
decreasing_by
  have := decodeStep_length b rest
  simp only [List.length_cons]; omega

def decodeStrict? (bs : List UInt8) : Option String :=
  ((decodeAll bs).mapM id).map String.ofList

/-- The text of some bytes with a replacement character for each ill-formed part. -/
def decodeLenient (bs : List UInt8) : String :=
  String.ofList ((decodeAll bs).map fun c => c.getD (Char.ofNat 0xfffd))

end RubyScaffold.Text
