import RubyScaffold.Proofs.Manifest.Sections
import RubyScaffold.Proofs.Manifest.Validation

/-!
Which JSON values are manifests, exactly: those that fit the schema and whose class passes the
check. The manifest is then the one that the schema describes.
-/

set_option autoImplicit false

namespace RubyScaffold

open Json (Value MembersShownBy)
open Schema (Fits Sections ClassInWord DirectivesInWord manifestOf)

namespace Schema

variable {π φ : Type} {ms : List (String × Value)}

private theorem directivesInWord_of_wordSized {found : List (String × π × Tree π φ)}
    (held : Json.MembersHeldBy ms found) (sized : MembersWordSized found) :
    DirectivesInWord ms := by
  rw [← Json.membersShownBy_everything] at held
  rintro v mem ⟨key, w⟩ inside i rfl
  obtain ⟨p, t, there, own⟩ := held.exists_tree mem
  cases v with
  | table entries =>
    obtain ⟨q, others, rfl, entriesShown⟩ := own
    obtain ⟨r, u, entry, shown⟩ := entriesShown.exists_tree inside
    obtain ⟨o, rfl⟩ := shown
    exact MembersWordSized.of_mem (sized.of_mem there) entry
  | null | bool | integer | float | text | list => cases inside

private theorem classInWord_of_wordSized {wanted : Interest} (covers : Decode.Covers wanted)
    (sections : Sections ms) {t : Tree π φ} (shown : (Value.table ms).ShownBy wanted t)
    (sized : t.WordSized) : ClassInWord ms := by
  obtain ⟨p, found, rfl, members⟩ := (Interest.shows_iff covers.root t _).mp shown
  intro v mem
  obtain ⟨inner, rfl⟩ := sections _ mem (.inr rfl)
  obtain ⟨q, u, there, own⟩ := members.exists_tree mem
  rw [covers.cls, Json.shownBy_everything] at own
  obtain ⟨r, others, rfl, inside⟩ := own
  exact directivesInWord_of_wordSized inside (MembersWordSized.of_mem sized there)

end Schema

namespace Manifest

/-- Parsing decodes, and then refuses the class for the fault that counts. -/
theorem parse_eq (format : ManifestFormat) (text source : String) :
    parse format text source = match decode format text source with
      | .error e => .error e
      | .ok m => match m.cls.fault? with
        | some fault => .error (fault.locate text source)
        | none => .ok m := by
  unfold parse
  cases decode format text source with
  | error e => rfl
  | ok m =>
    change (m.cls.checkIn text source >>= fun _ => .ok m) = _
    rw [ClassOutline.checkIn_eq]
    cases fault : m.cls.fault? with
    | none => simp [fault, bind, Except.bind]
    | some f => simp [fault, bind, Except.bind]

theorem parse_eq_ok_iff {format : ManifestFormat} {text source : String} {m : Manifest} :
    parse format text source = .ok m ↔
      decode format text source = .ok m ∧ m.cls.fault? = none := by
  rw [parse_eq]
  cases decode format text source with
  | error e => simp
  | ok n =>
    cases fault : n.cls.fault? with
    | none =>
      have good : n = m → m.cls.fault? = none := fun same => same ▸ fault
      simpa [fault] using good
    | some f =>
      have bad : n = m → m.cls.fault? ≠ none := by
        rintro rfl
        simp [fault]
      simpa [fault] using bad

private theorem checkIn_eq_ok_iff {c : ManifestClass} {text source : String} :
    c.checkIn text source = .ok () ↔ c.fault? = none := by
  rw [ClassOutline.checkIn_eq]
  cases c.fault? <;> simp

theorem decodeJson_eq_ok_iff {text : String} {m : Manifest} :
    decodeJson text = .ok m ↔
      Decode.manifest Json.surplusFault (Json.read Decode.asked text).root = .ok m ∧
        (Json.read Decode.asked text).ending = none := by
  simp only [decodeJson, bind_eq_ok]
  constructor
  · rintro ⟨n, own, ⟨⟩, ended, same⟩
    cases same
    cases ending : (Json.read Decode.asked text).ending with
    | none => exact ⟨own, rfl⟩
    | some f =>
      rw [ending] at ended
      cases ended
  · rintro ⟨own, ending⟩
    exact ⟨m, own, (), by rw [ending]; rfl, rfl⟩

theorem decode_json_eq_ok_iff {text source : String} {t : Json.JsonTree}
    (read : Json.read Decode.asked text = ⟨t, none⟩) {m : Manifest} :
    decode .json text source = .ok m ↔ Decode.manifest Json.surplusFault t = .ok m := by
  rw [decode, mapError_eq_ok, decodeJson_eq_ok_iff, read, eq_self, and_true]

/-- Decoding a JSON value and checking its class succeeds exactly where the members fit the schema
and the check accepts the class that they describe, and gives the manifest that they describe. The
same holds from the text on, for every text that the reader takes for the value. -/
theorem parse_json_schema {ms : List (String × Value)} (sections : Sections ms)
    {t : Json.JsonTree} (shown : (Value.table ms).ShownBy Decode.asked t) (text source : String)
    (m : Manifest) :
    (ClassInWord ms →
      (Decode.manifest Json.surplusFault t = .ok m ∧ m.cls.checkIn text source = .ok () ↔
        Fits ms ∧ (manifestOf ms).cls.checkIn text source = .ok () ∧ manifestOf ms = m)) ∧
    (Json.read Decode.asked text = ⟨t, none⟩ →
      (parse .json text source = .ok m ↔
        Fits ms ∧ (manifestOf ms).cls.checkIn text source = .ok () ∧ manifestOf ms = m)) := by
  have decided : ClassInWord ms →
      (Decode.manifest Json.surplusFault t = .ok m ∧ m.cls.checkIn text source = .ok () ↔
        Fits ms ∧ (manifestOf ms).cls.checkIn text source = .ok () ∧ manifestOf ms = m) := by
    intro words
    rw [Decode.manifest_eq_ok_iff Decode.covers_asked sections shown]
    constructor
    · rintro ⟨⟨fits, -, rfl⟩, accepted⟩
      exact ⟨fits, accepted, rfl⟩
    · rintro ⟨fits, accepted, rfl⟩
      exact ⟨⟨fits, words, rfl⟩, accepted⟩
  refine ⟨decided, fun read => ?_⟩
  have sized : t.WordSized := by
    have delivered := Json.read_wordSized Decode.asked text
    rw [read] at delivered
    exact delivered
  rw [parse_eq_ok_iff, decode_json_eq_ok_iff read, ← checkIn_eq_ok_iff]
  exact decided (Schema.classInWord_of_wordSized Decode.covers_asked sections shown sized)

def potClass : List (String × Value) :=
  [("name", .text "Pot"), ("directives", .table [("size", .integer 3)])]

/-- The class next to a setting of another name, which is passed over. -/
def potMembers : List (String × Value) :=
  [("settings", .table [("x", .integer 1)]), ("class", .table potClass)]

def potJson : String :=
  "\x7b\"settings\":\x7b\"x\":1\x7d," ++
    "\"class\":\x7b\"name\":\"Pot\",\"directives\":\x7b\"size\":3\x7d\x7d\x7d"

theorem shown_potJson : ∃ t, Json.read Decode.asked potJson = ⟨t, none⟩ ∧
    (Value.table potMembers).ShownBy Decode.asked t := by
  have ending : (Json.read Decode.asked potJson).ending = none := by
    decide +kernel
  have shown : (Value.table potMembers).ShownBy Decode.asked
      (Json.read Decode.asked potJson).root := by
    decide +kernel
  exact ⟨_, by rw [← ending], shown⟩

theorem sections_pot : Sections potMembers := by
  intro m mem _
  simp only [potMembers, List.mem_cons, List.not_mem_nil, or_false] at mem
  rcases mem with rfl | rfl
  · exact ⟨_, rfl⟩
  · exact ⟨_, rfl⟩

theorem fits_pot : Fits potMembers where
  known := by simp [potMembers]
  once := by decide
  described := by decide
  settings := by
    intro v mem
    obtain rfl : v = .table [("x", .integer 1)] := by simpa [potMembers] using mem
    exact ⟨by decide, by simp [Value.members]⟩
  cls := by
    intro v mem
    obtain rfl : v = .table potClass := by simpa [potMembers] using mem
    refine ⟨by decide, by decide, by decide, ?_⟩
    simp [Value.members, potClass, Schema.MemberFits, Value.IsText, Value.IsMap, Value.IsScalar]

theorem classInWord_pot : ClassInWord potMembers := by
  intro v mem w inside m directive
  obtain rfl : v = .table potClass := by simpa [potMembers] using mem
  obtain rfl : w = .table [("size", .integer 3)] := by
    simpa [Value.members, potClass] using inside
  obtain rfl : m = ("size", .integer 3) := by simpa [Value.members] using directive
  rintro i ⟨⟩
  decide

theorem parse_json_schema_pot :
    parse .json potJson "pot.json" = .ok (manifestOf potMembers) ∧
      (∃ t : Json.JsonTree, (Value.table potMembers).ShownBy Decode.asked t ∧
        Decode.manifest Json.surplusFault t = .ok (manifestOf potMembers)) ∧
      (manifestOf potMembers).cls.directives.entries = [("size", .integer 3)] := by
  obtain ⟨t, read, shown⟩ := shown_potJson
  have both := parse_json_schema sections_pot shown potJson "pot.json" (manifestOf potMembers)
  have accepted : (manifestOf potMembers).cls.checkIn potJson "pot.json" = .ok () := rfl
  exact ⟨(both.2 read).mpr ⟨fits_pot, accepted, rfl⟩,
    ⟨t, shown, ((both.1 classInWord_pot).mpr ⟨fits_pot, accepted, rfl⟩).1⟩, by decide⟩

end Manifest

end RubyScaffold
