import RubyScaffold.Proofs.Manifest.NonFinite
import RubyScaffold.Proofs.Manifest.Validation

/-!
A manifest as JSON text and back. Without binary numbers it comes back as it was; with one that is
not finite it cannot come back, and the text is refused.
-/

set_option autoImplicit false

namespace RubyScaffold.Manifest

private theorem decodeJson_jsonText {m : Manifest}
    (exact : ∀ e ∈ m.cls.directives.entries, ∀ x, e.2 ≠ .float x) :
    decodeJson m.jsonText = .ok m := by
  obtain ⟨t, read, held⟩ := Json.read_write m.toJson (toJson_legible exact)
  have decoded : Decode.manifest Json.surplusFault t = .ok m := Decode.manifest_of_heldBy exact held
  have document : Json.read Decode.asked m.jsonText = ⟨t, none⟩ := read
  rw [decodeJson, document, decoded]
  rfl

private theorem checkIn_of_checkIn {c : ManifestClass} {text name : String}
    (accepted : c.checkIn text name = .ok ()) (text' name' : String) :
    c.checkIn text' name' = .ok () := by
  rw [ClassOutline.checkIn_eq] at accepted ⊢
  cases fault : c.fault? with
  | none => rfl
  | some f =>
    rw [fault] at accepted
    cases accepted

/-- An accepted manifest without binary numbers is read back from its JSON text, and one with a
binary number that is not finite is refused. -/
theorem parse_jsonText (m : Manifest) (source : String) :
    ((∀ e ∈ m.cls.directives.entries, ∀ x, e.2 ≠ .float x) →
      ∀ text name, m.cls.checkIn text name = .ok () →
        parse .json m.jsonText source = .ok m) ∧
    ((∃ e ∈ m.cls.directives.entries, ∃ x, e.2 = .float x ∧ x.isFinite = false) →
      ∃ message span,
        parse .json m.jsonText source = .error (.parse .json source message span)) := by
  constructor
  · intro exact text name accepted
    have decoded : decode .json m.jsonText source = .ok m := by
      rw [decode, decodeJson_jsonText exact]
      rfl
    rw [parse, decoded]
    change (m.cls.checkIn m.jsonText source >>= fun _ => .ok m) = .ok m
    rw [checkIn_of_checkIn accepted]
    rfl
  · intro infinite
    obtain ⟨e, refused⟩ := decodeJson_nonFinite infinite
    have failed : decode .json m.jsonText source = .error (jsonError m.jsonText source e) := by
      rw [decode, refused]
      rfl
    rw [parse, failed]
    exact ⟨_, _, rfl⟩

/-- A manifest with texts that look like other values, and with parameters absent and empty. -/
def kettle : Manifest where
  cls := {
    name := "Kettle"
    fields := ["@water"]
    methods := ⟨[("boil", none), ("pour\n", some [])], by decide⟩
    directives := ⟨[("1", .text "true"), ("typed", .bool true), ("size", .integer Int64.minValue)],
      by decide⟩ }

def steaming : Manifest where
  cls := { kettle.cls with directives := ⟨[("heat", .float .nan)], by decide⟩ }

theorem parse_jsonText_kettle :
    parse .json kettle.jsonText "kettle.json" = .ok kettle ∧
    ∃ message span, parse .json steaming.jsonText "kettle.json" =
      .error (.parse .json "kettle.json" message span) := by
  have exact : ∀ e ∈ kettle.cls.directives.entries, ∀ x, e.2 ≠ .float x := by
    intro e mem x
    simp only [kettle, List.mem_cons, List.not_mem_nil, or_false] at mem
    rcases mem with rfl | rfl | rfl <;> simp
  have accepted : kettle.cls.checkIn "" "" = .ok () := by cbv
  have infinite : ∃ e ∈ steaming.cls.directives.entries, ∃ x, e.2 = .float x ∧ x.isFinite = false :=
    ⟨("heat", .float .nan), List.mem_cons_self, .nan, rfl, by decide⟩
  exact ⟨(parse_jsonText kettle "kettle.json").1 exact "" "" accepted,
    (parse_jsonText steaming "kettle.json").2 infinite⟩

end RubyScaffold.Manifest
