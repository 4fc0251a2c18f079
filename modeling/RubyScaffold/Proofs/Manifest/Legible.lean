import RubyScaffold.Manifest.Decode
import RubyScaffold.Manifest.Writing
import RubyScaffold.Proofs.Json.Reading

/-!
A manifest without binary numbers is written so that a reader who is asked for manifests takes in
all of it.
-/

set_option autoImplicit false

namespace RubyScaffold

open Json

variable {depth : Nat}

private theorem legibleItems_everything {vs : List Value}
    (all : ∀ v ∈ vs, v.Legible depth .everything) (n : Nat) :
    LegibleItems vs depth .everything n := by
  induction vs generalizing n with
  | nil => trivial
  | cons v vs ih =>
    have others := ih (fun w mem => all w (List.mem_cons_of_mem _ mem)) (n + 1)
    exact ⟨all v List.mem_cons_self, others⟩

theorem legibleMembers_everything {ms : List (String × Value)}
    (all : ∀ m ∈ ms, m.2.Legible depth .everything) : LegibleMembers ms depth .everything := by
  induction ms with
  | nil => trivial
  | cons m ms ih =>
    have others := ih fun w mem => all w (List.mem_cons_of_mem _ mem)
    exact ⟨all m List.mem_cons_self, others⟩

private theorem text_legible (s : String) : (Value.text s).Legible depth .everything := by
  intro nothing
  cases nothing

private theorem textList_legible (ss : List String) :
    (textList ss).Legible (depth + 1) .everything := by
  refine ⟨by simp, by omega, legibleItems_everything ?_ 0⟩
  intro v mem
  obtain ⟨s, -, rfl⟩ := List.mem_map.mp mem
  exact text_legible s

private theorem optional_legible {α : Type} {f : α → Value}
    (all : ∀ a, (f a).Legible depth .everything) (o : Option α) :
    (optional f o).Legible depth .everything := by
  cases o with
  | none =>
    intro nothing
    cases nothing
  | some a => exact all a

private theorem toJson_legible {α : Type} {f : α → Value} {m : OrderedMap α}
    (all : ∀ e ∈ m.entries, (f e.2).Legible depth .everything) :
    (m.toJson f).Legible (depth + 1) .everything := by
  refine ⟨by simp, by omega, legibleMembers_everything ?_⟩
  intro v mem
  obtain ⟨e, inside, rfl⟩ := List.mem_map.mp mem
  exact all e inside

theorem DirectiveValue.legible {d : DirectiveValue} (exact : ∀ x, d ≠ .float x) :
    d.toJson.Legible depth .everything := by
  cases d with
  | bool b =>
    intro nothing
    cases nothing
  | integer i =>
    have low := Int64.le_toInt i
    have high := Int64.toInt_lt i
    exact ⟨by simp, by omega, by omega⟩
  | float x => exact absurd rfl (exact x)
  | text s => exact text_legible s

def Manifest.plainMembers (c : ManifestClass) : List (String × Value) :=
  [("parent", optional .text c.parent), ("modules", textList c.scopes),
    ("includes", textList c.includes), ("requires", textList c.requires),
    ("relative_requires", textList c.relativeRequires), ("fields", textList c.fields),
    ("methods", c.methods.toJson (optional textList)), ("top_contents", textList c.topContents)]

theorem Manifest.classJson_eq (c : ManifestClass) :
    classJson c = .table (("name", .text c.name) :: plainMembers c ++
      [("directives", c.directives.toJson DirectiveValue.toJson)]) := rfl

theorem Manifest.toJson_eq (m : Manifest) :
    m.toJson = .table (("settings", settingsJson m.settings) :: [] ++
      [("class", classJson m.cls)]) := rfl

theorem plainMembers_legible (c : ManifestClass) :
    ∀ m ∈ ("name", Value.text c.name) :: Manifest.plainMembers c,
      m.2.Legible (depth + 2) .everything := by
  intro m mem
  have methods : (c.methods.toJson (optional textList)).Legible (depth + 2) .everything :=
    toJson_legible fun e _ => optional_legible textList_legible e.2
  simp only [Manifest.plainMembers, List.mem_cons, List.not_mem_nil, or_false] at mem
  rcases mem with rfl | rfl | rfl | rfl | rfl | rfl | rfl | rfl | rfl
  · exact text_legible c.name
  · exact optional_legible text_legible c.parent
  · exact textList_legible c.scopes
  · exact textList_legible c.includes
  · exact textList_legible c.requires
  · exact textList_legible c.relativeRequires
  · exact textList_legible c.fields
  · exact methods
  · exact textList_legible c.topContents

private theorem classJson_legible {c : ManifestClass}
    (exact : ∀ e ∈ c.directives.entries, ∀ x, e.2 ≠ .float x) :
    (Manifest.classJson c).Legible (depth + 3) .everything := by
  rw [Manifest.classJson_eq]
  refine ⟨by simp, by omega, legibleMembers_everything ?_⟩
  intro m mem
  rcases List.mem_append.mp mem with plain | last
  · exact plainMembers_legible c m plain
  · obtain rfl := List.mem_singleton.mp last
    exact toJson_legible fun e inside => DirectiveValue.legible (exact e inside)

theorem settingsJson_legible (s : Settings) :
    (Manifest.settingsJson s).Legible (depth + 1) (Decode.asked.member "settings") := by
  have whole : Decode.asked.member "settings" ≠ .nothing := by
    simp [Decode.asked, Interest.member]
  have field : (Decode.asked.member "settings").member "frozen_string_literal" ≠ .nothing := by
    simp [Decode.asked, Interest.member]
  exact ⟨whole, by omega, field, trivial⟩

theorem asked_class : Decode.asked.member "class" = .everything := by
  simp [Decode.asked, Interest.member]

theorem asked_ne_nothing : Decode.asked ≠ .nothing := by
  simp [Decode.asked]

theorem Manifest.toJson_legible {m : Manifest}
    (exact : ∀ e ∈ m.cls.directives.entries, ∀ x, e.2 ≠ .float x) :
    m.toJson.Legible maxDepth Decode.asked := by
  have cls : (classJson m.cls).Legible 126 (Decode.asked.member "class") := by
    rw [asked_class]
    exact classJson_legible exact
  exact ⟨asked_ne_nothing, by decide, settingsJson_legible m.settings, cls, trivial⟩

end RubyScaffold
