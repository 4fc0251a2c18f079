import Mathlib.Data.String.Basic
import RubyScaffold.Proofs.Text.Search

/-!
The span of a name in a text. There is one exactly if the name occurs, it begins and ends between
characters and holds the name, and it stands between quotes if the name does so anywhere.
-/

set_option autoImplicit false

namespace RubyScaffold.Text

open String (Pos.Raw)

private theorem byteLength_eq_utf8Len (cs : List Char) : byteLength cs = String.utf8Len cs := by
  induction cs with
  | nil => rfl
  | cons c cs ih => rw [byteLength, ih, String.utf8Len_cons, Nat.add_comm]

private theorem byteLength_toList (s : String) : byteLength s.toList = s.utf8ByteSize := by
  rw [byteLength_eq_utf8Len, ← String.utf8ByteSize_ofList, String.ofList_toList]

private theorem exists_standsAt_iff {text found : List Char} :
    (∃ offset, StandsAt text offset found) ↔ found <:+: text := by
  constructor
  · rintro ⟨-, before, after, rfl, -⟩
    exact ⟨before, after, rfl⟩
  · rintro ⟨before, after, rfl⟩
    exact ⟨_, before, after, rfl, rfl⟩

private theorem isValid_append (front back : String) :
    Pos.Raw.IsValid (front ++ back) ⟨front.utf8ByteSize⟩ :=
  Pos.Raw.isValid_iff_exists_append.mpr ⟨front, back, rfl, rfl⟩

private theorem StandsAt.slice {text name : String} {offset : Nat}
    (stands : StandsAt text.toList offset name.toList) :
    offset + name.utf8ByteSize ≤ text.utf8ByteSize ∧ Pos.Raw.IsValid text ⟨offset⟩ ∧
      Pos.Raw.IsValid text ⟨offset + name.utf8ByteSize⟩ ∧
      Pos.Raw.extract text ⟨offset⟩ ⟨offset + name.utf8ByteSize⟩ = name := by
  obtain ⟨before, after, split, measured⟩ := stands
  have whole : text = String.ofList before ++ name ++ String.ofList after :=
    String.toList_injective (by simpa using split)
  have front : (String.ofList before).utf8ByteSize = offset := by
    rw [← byteLength_toList, String.toList_ofList, measured]
  have both : (String.ofList before ++ name).utf8ByteSize = offset + name.utf8ByteSize := by
    rw [String.utf8ByteSize_append, front]
  refine ⟨?_, ?_, ?_, ?_⟩
  · rw [whole, String.utf8ByteSize_append, both]
    exact Nat.le_add_right _ _
  · rw [whole, String.append_assoc, ← front]
    exact isValid_append _ _
  · rw [whole, ← both]
    exact isValid_append _ _
  · have slice := String.extract_of_valid before name.toList after
    rwa [← split, String.ofList_toList, String.ofList_toList, ← byteLength_eq_utf8Len,
      ← byteLength_eq_utf8Len, byteLength_toList, measured] at slice

/-- Whether a name stands between two quotes anywhere in a text. -/
def QuotedIn (quote : Char) (name text : String) : Prop :=
  (quote :: name.toList ++ [quote]) <:+: text.toList

/-- Whether a name stands at an offset of a text, directly between two quotes. -/
def BetweenAt (quote : Char) (name text : String) (offset : Nat) : Prop :=
  ∃ start, StandsAt text.toList start (quote :: name.toList ++ [quote]) ∧
    start + quote.utf8Size = offset

private theorem LikelyAt.between {text name : String} {offset : Nat} {quote : Char}
    {likelier others : List (List Char × List Char)}
    (likely : LikelyAt text.toList name.toList offset)
    (split : nameMarks = likelier ++ ([quote], [quote]) :: others)
    (quoted : QuotedIn quote name text)
    (before : ∀ m ∈ likelier, ∀ o, ¬ StandsAt text.toList o (m.1 ++ name.toList ++ m.2)) :
    BetweenAt quote name text offset :=
  (likelyAt_iff split (exists_standsAt_iff.mpr quoted) before offset).mp likely

/-- The search for a name finds nothing exactly if the name does not occur. What it finds has the
length of the name and lies inside the text, both its ends lie between characters, and the slice
between them is the name. If the name stands between double quotes anywhere, the slice has them
directly before and behind it, and so with single quotes if it does not. -/
theorem nameSpan?_exact (text name : String) :
    (nameSpan? text name = none ↔ ¬ name.toList <:+: text.toList) ∧
    ∀ offset length, nameSpan? text name = some (offset, length) →
      length = name.utf8ByteSize ∧ offset + length ≤ text.utf8ByteSize ∧
      Pos.Raw.IsValid text ⟨offset⟩ ∧ Pos.Raw.IsValid text ⟨offset + length⟩ ∧
      Pos.Raw.extract text ⟨offset⟩ ⟨offset + length⟩ = name ∧
      (QuotedIn '"' name text → BetweenAt '"' name text offset) ∧
      (¬ QuotedIn '"' name text → QuotedIn '\'' name text → BetweenAt '\'' name text offset) := by
  constructor
  · rw [nameSpan?_eq_none_iff, ← exists_standsAt_iff, not_exists]
  · intro offset length found
    obtain ⟨measured, likely, -⟩ := nameSpan?_eq_some_iff.mp found
    obtain rfl : length = name.utf8ByteSize := measured.trans (byteLength_toList name)
    obtain ⟨inside, first, last, slice⟩ := likely.standsAt.slice
    refine ⟨rfl, inside, first, last, slice, fun double => ?_, fun none single => ?_⟩
    · exact likely.between rfl double (List.forall_mem_nil _)
    · have split : nameMarks = [(['"'], ['"'])] ++ (['\''], ['\'']) :: nameMarks.drop 2 := rfl
      refine likely.between split single ?_
      simpa [QuotedIn, ← exists_standsAt_iff] using none

def accentedText : String :=
  "né = 'né' # \"né\""

theorem nameSpan?_exact_accented :
    nameSpan? accentedText "né" = some (15, 3) ∧ 18 ≤ accentedText.utf8ByteSize ∧
      Pos.Raw.IsValid accentedText ⟨15⟩ ∧ Pos.Raw.extract accentedText ⟨15⟩ ⟨18⟩ = "né" ∧
      BetweenAt '"' "né" accentedText 15 := by
  have found : nameSpan? accentedText "né" = some (15, 3) := by decide +kernel
  have quoted : QuotedIn '"' "né" accentedText := ⟨"né = 'né' # ".toList, [], by decide +kernel⟩
  obtain ⟨-, inside, first, -, slice, double, -⟩ := (nameSpan?_exact accentedText "né").2 15 3 found
  exact ⟨found, inside, first, slice, double quoted⟩

end RubyScaffold.Text
