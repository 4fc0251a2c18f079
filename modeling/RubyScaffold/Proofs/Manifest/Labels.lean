import RubyScaffold.Proofs.Json.Places
import RubyScaffold.Proofs.Manifest.FormatsAgree
import RubyScaffold.Proofs.Manifest.Offenders
import RubyScaffold.Proofs.Text.Search
import RubyScaffold.Proofs.Toml.Places

/-!
The label of a refused manifest. A fault of a class is about something that is written in the
manifest, and the label is looked for by name in the whole text: it stands on the fault where no
place of the name outside of it is as likely.
-/

set_option autoImplicit false

namespace RubyScaffold

open Text (StandsAt LikelyAt byteLength nameSpan?_eq_none_iff nameSpan?_eq_some_iff)

section Trees

variable {π φ : Type} {right : π → String → Prop} {made : Tree π φ → Prop}

/-- The trees that no literal is written for are tables with one key. -/
def Tree.OnlyKey (only : String) (made : Tree π φ → Prop) : Prop :=
  ∀ t, made t → ∃ p q u ending, t = .table p [(only, q, u)] ending

variable {only : String} (single : Tree.OnlyKey only made)
include single

private theorem Tree.Sourced.of_mem_under {t u : Tree π φ} {fields : List String} {key : String}
    (other : key ≠ only) (sourced : t.Sourced right made) (mem : u ∈ t.under fields key) :
    u.Sourced right made := by
  cases sourced with
  | table _ values =>
    obtain ⟨p, member⟩ := Tree.mem_under_table.mp mem
    exact values _ member
  | list items =>
    obtain ⟨i, -, item⟩ := Tree.mem_under_list.mp mem
    exact items _ (List.mem_of_getElem? item)
  | made special =>
    obtain ⟨p, q, v, ending, rfl⟩ := single t special
    obtain ⟨p', member⟩ := Tree.mem_under_table.mp mem
    exact absurd (congrArg Prod.fst (List.mem_singleton.mp member)) other
  | null | bool | integer | float | skipped | unreadable | text => cases mem

private theorem Tree.Sourced.of_mem_itemPlaces {t : Tree π φ} {s : String} {place : π}
    (sourced : t.Sourced right made) (mem : place ∈ t.itemPlaces s) : right place s := by
  cases sourced with
  | list items =>
    cases items _ (Tree.mem_itemPlaces.mp mem) with
    | text written => exact written
    | made special =>
      obtain ⟨p, q, v, ending, same⟩ := single _ special
      cases same
  | made special =>
    obtain ⟨p, q, v, ending, rfl⟩ := single t special
    cases mem
  | null | bool | integer | float | skipped | unreadable | text | table => cases mem

private theorem Tree.Sourced.of_mem_keyPlaces {t : Tree π φ} {key : String} {place : π}
    (other : key ≠ only) (sourced : t.Sourced right made) (mem : place ∈ t.keyPlaces key) :
    right place key := by
  cases sourced with
  | table keys _ =>
    obtain ⟨u, member⟩ := Tree.mem_keyPlaces.mp mem
    exact keys _ member
  | made special =>
    obtain ⟨p, q, v, ending, rfl⟩ := single t special
    obtain ⟨u, member⟩ := Tree.mem_keyPlaces.mp mem
    exact absurd (congrArg Prod.fst (List.mem_singleton.mp member)) other
  | null | bool | integer | float | skipped | unreadable | text | list => cases mem

/-- The offender of a fault stands at its places. -/
private theorem Tree.Sourced.of_mem_offenders {root : Tree π φ} {fault : ClassFault} {place : π}
    (others : ∀ key ∈ ["class", "fields", "methods", "initialize"], key ≠ only)
    (sourced : root.Sourced right made) (mem : place ∈ fault.offenders root) :
    right place fault.offender := by
  obtain ⟨cls, ofClass, mem⟩ := List.mem_flatMap.mp mem
  have classSourced := sourced.of_mem_under single (others "class" (by simp)) ofClass
  cases fault with
  | missingSigil | badName =>
    obtain ⟨list, ofFields, item⟩ := List.mem_flatMap.mp mem
    exact (classSourced.of_mem_under single (others "fields" (by simp)) ofFields).of_mem_itemPlaces
      single item
  | constructorClash =>
    obtain ⟨table, ofMethods, key⟩ := List.mem_flatMap.mp mem
    exact (classSourced.of_mem_under single (others "methods" (by simp)) ofMethods).of_mem_keyPlaces
      single (others "initialize" (by simp)) key

end Trees

namespace Manifest

variable {format : ManifestFormat} {text source : String} {fault : ClassFault}

def literalMarks : ManifestFormat → List (List Char × List Char)
  | .json => Json.quotes
  | .toml => Toml.marks

/-- Where the literals of what a fault is about begin and end in a manifest: the entries of the
class's instance variables with its name, or the keys of a declared constructor. -/
def offenderRanges (format : ManifestFormat) (text : String) (fault : ClassFault) :
    List (Nat × Nat) :=
  match format with
  | .json => (fault.offenders (Json.read Decode.asked text).root).map fun p => (p.start, p.stop)
  | .toml => match Toml.read text with
    | .error _ => []
    | .ok tree => (fault.offenders tree).map fun p => (p.offset, p.offset + p.length)

/-- Whether some bytes lie inside a literal of what a fault is about. -/
def InOffender (format : ManifestFormat) (text : String) (fault : ClassFault)
    (offset length : Nat) : Prop :=
  ∃ range ∈ offenderRanges format text fault, range.1 ≤ offset ∧ offset + length ≤ range.2

instance (format : ManifestFormat) (text : String) (fault : ClassFault) (offset length : Nat) :
    Decidable (InOffender format text fault offset length) :=
  inferInstanceAs (Decidable (∃ range ∈ offenderRanges format text fault, _))

private theorem written_of_mem_offenderRanges {range : Nat × Nat}
    (mem : range ∈ offenderRanges format text fault) :
    Text.Written (literalMarks format) text.toList range.1 range.2 fault.offender := by
  cases format with
  | json =>
    obtain ⟨place, there, rfl⟩ := List.mem_map.mp mem
    have single : Tree.OnlyKey "" fun _ : Json.JsonTree => False := fun _ no => no.elim
    have written : Json.WrittenAt text.toList place fault.offender :=
      (Json.read_sourced Decode.asked text).of_mem_offenders single (by decide) there
    exact written
  | toml =>
    rw [offenderRanges] at mem
    split at mem
    · cases mem
    · next tree read =>
      obtain ⟨place, there, rfl⟩ := List.mem_map.mp mem
      have single : Tree.OnlyKey Toml.momentKey Toml.IsMoment := by
        rintro _ ⟨span, s, rfl⟩
        exact ⟨span, span, _, none, rfl⟩
      have written : Toml.WrittenAt text.toList place fault.offender :=
        (Toml.read_sourced read).of_mem_offenders single (by decide) there
      exact written

private theorem offenderRanges_ne_nil {m : Manifest} (decoded : decode format text source = .ok m)
    (first : m.cls.fault? = some fault) : offenderRanges format text fault ≠ [] := by
  cases format with
  | json =>
    have own := (decodeJson_eq_ok_iff.mp (mapError_eq_ok.mp decoded)).1
    simpa [offenderRanges] using offenders_ne_nil own first
  | toml =>
    cases read : Toml.read text with
    | error f =>
      rw [decode, decodeToml, read] at decoded
      cases decoded
    | ok tree =>
      have own := (decode_toml_eq_ok_iff read).mp decoded
      simpa [offenderRanges, read] using offenders_ne_nil own first

private theorem standsAt_of_plain {marks : List (List Char × List Char)} {cs : List Char}
    {start stop : Nat} {s : String} (written : Text.Written marks cs start stop s)
    {literal : List Char} (stands : StandsAt cs start literal)
    (measured : start + byteLength literal = stop) (plain : '\\' ∉ literal) :
    ∃ offset, start ≤ offset ∧ offset + byteLength s.toList ≤ stop ∧
      StandsAt cs offset s.toList := by
  obtain ⟨own, there, rfl, lead, inner, trail, -, rfl, spelled⟩ := written
  obtain rfl := stands.unique there (by omega)
  obtain rfl := spelled fun escape => plain (by simp [escape])
  refine ⟨start + byteLength lead, by omega, ?_, there.inside⟩
  simp only [Text.byteLength_append]
  omega

/-- What a fault of a class is about stands in the manifest. The label is at the first of the
likeliest places of its name, wherever that is, and is missing if the name stands nowhere. So it is
on the offender where this is written without escapes and the likeliest places are all in it. -/
theorem label_of_invalid {name : String} {span : Option (Nat × Nat)}
    (refused : parse format text source = .error (.invalid fault name span)) :
    offenderRanges format text fault ≠ [] ∧
    (∀ range ∈ offenderRanges format text fault,
      Text.Written (literalMarks format) text.toList range.1 range.2 fault.offender) ∧
    (span = none ↔ ∀ offset, ¬ StandsAt text.toList offset fault.offender.toList) ∧
    (∀ offset length, span = some (offset, length) ↔
      length = byteLength fault.offender.toList ∧
        LikelyAt text.toList fault.offender.toList offset ∧
        ∀ other, LikelyAt text.toList fault.offender.toList other → offset ≤ other) ∧
    ((∃ range ∈ offenderRanges format text fault, ∃ literal,
        StandsAt text.toList range.1 literal ∧ range.1 + byteLength literal = range.2 ∧
          '\\' ∉ literal) →
      (∀ offset, LikelyAt text.toList fault.offender.toList offset →
        InOffender format text fault offset (byteLength fault.offender.toList)) →
      ∃ offset length, span = some (offset, length) ∧
        InOffender format text fault offset length) := by
  obtain ⟨-, rfl, m, decoded, first⟩ := parse_eq_invalid_iff.mp refused
  refine ⟨offenderRanges_ne_nil decoded first, fun range mem => written_of_mem_offenderRanges mem,
    nameSpan?_eq_none_iff, fun offset length => nameSpan?_eq_some_iff, ?_⟩
  rintro ⟨range, mem, literal, stands, measured, plain⟩ likely
  obtain ⟨place, -, -, there⟩ :=
    standsAt_of_plain (written_of_mem_offenderRanges mem) stands measured plain
  cases label : Text.nameSpan? text fault.offender with
  | none => exact absurd there (nameSpan?_eq_none_iff.mp label place)
  | some found =>
    obtain ⟨offset, length⟩ := found
    obtain ⟨rfl, here, -⟩ := nameSpan?_eq_some_iff.mp label
    exact ⟨offset, _, rfl, likely offset here⟩

/-- A manifest whose class has an instance variable without a sigil, which its name ends in. -/
def languageText : String :=
  "\x7b\"class\":\x7b\"name\":\"Language\",\"fields\":[\"age\"]\x7d\x7d"

theorem label_of_invalid_language :
    ∃ offset length, parse .json languageText "rbgen.json" =
        .error (.invalid (.missingSigil "age") "rbgen.json" (some (offset, length))) ∧
      InOffender .json languageText (.missingSigil "age") offset length := by
  have refused : parse .json languageText "rbgen.json" =
      .error (.invalid (.missingSigil "age") "rbgen.json" (some (39, 3))) := by cbv
  have entry : (38, 43) ∈ offenderRanges .json languageText (.missingSigil "age") := by
    decide +kernel
  have quoted : StandsAt languageText.toList 38 ['"', 'a', 'g', 'e', '"'] := by decide +kernel
  -- the end of the class's name is not between quotes of its own, so it is not as likely
  have once : ∀ n ∈ List.range (languageText.toList.length + 1),
      ['"', 'a', 'g', 'e', '"'].isPrefixOf (languageText.toList.drop n) →
        byteLength (languageText.toList.take n) = 38 := by decide +kernel
  obtain ⟨-, -, -, -, labelled⟩ := label_of_invalid refused
  obtain ⟨offset, length, same, inside⟩ :=
    labelled ⟨(38, 43), entry, _, quoted, by decide, by decide⟩ fun offset likely => by
      obtain ⟨start, stands, rfl⟩ := (Text.likelyAt_iff_of_quoted quoted offset).mp likely
      obtain ⟨n, inText, rfl, here⟩ := Text.standsAt_iff.mp stands
      exact ⟨(38, 43), entry, by rw [once n inText here]; decide⟩
  exact ⟨offset, length, same ▸ refused, inside⟩

/-- The name of an instance variable that is only written with an escape has no label. -/
example : parse .json
    "\x7b\"class\":\x7b\"name\":\"Pen\",\"fields\":[\"\\u0061ge\"]\x7d\x7d" "rbgen.json" =
      .error (.invalid (.missingSigil "age") "rbgen.json" none) := by
  cbv

def namesakeText : String :=
  "\x7b\"class\":\x7b\"name\":\"age\",\"fields\":[\"age\"]\x7d\x7d"

/-- The label of an instance variable can be on the name of the class. -/
theorem label_on_class_name :
    parse .json namesakeText "rbgen.json" =
        .error (.invalid (.missingSigil "age") "rbgen.json" (some (18, 3))) ∧
      offenderRanges .json namesakeText (.missingSigil "age") = [(33, 38)] ∧
      ¬ InOffender .json namesakeText (.missingSigil "age") 18 3 :=
  ⟨by cbv, by decide +kernel, by decide +kernel⟩

end Manifest

end RubyScaffold
