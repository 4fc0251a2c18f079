import RubyScaffold.Manifest.Decode
import RubyScaffold.Proofs.Fallible
import RubyScaffold.Proofs.Json.Shown
import RubyScaffold.Proofs.Manifest.Schema

/-!
What each decoder of a field makes of a value that a tree holds: it accepts the values that the
schema allows there, and gives what the schema says they mean.
-/

set_option autoImplicit false

namespace RubyScaffold

open Json (Value ItemsHeldBy MembersHeldBy)

def Json.Value.InWord (v : Value) : Prop :=
  ∀ i, v = .integer i → Decode.fitsWord i = true

namespace Decode

variable {π φ α β : Type}

/-- A decoder accepts the values that fit, and only those, and gives what they mean. -/
def Reads (decode : Tree π φ → Decoded π φ α) (fit : Value → Prop) (read : Value → α) : Prop :=
  ∀ (v : Value) (t : Tree π φ), v.HeldBy t → ∀ a, decode t = .ok a ↔ fit v ∧ read v = a

theorem reads_text : Reads (π := π) (φ := φ) text Value.IsText Value.asText := by
  intro v t held a
  cases v with
  | text s =>
    obtain ⟨p, rfl⟩ := held
    simp [text, Value.IsText, Value.asText]
  | null | bool | integer | float =>
    obtain ⟨p, rfl⟩ := held
    simp [text, mismatch, Value.IsText]
  | list | table =>
    obtain ⟨p, found, rfl, -⟩ := held
    simp [text, mismatch, Value.IsText]

theorem reads_bool : Reads (π := π) (φ := φ) bool Value.IsBool Value.asBool := by
  intro v t held a
  cases v with
  | bool b =>
    obtain ⟨p, rfl⟩ := held
    simp [bool, Value.IsBool, Value.asBool]
  | null | text | integer | float =>
    obtain ⟨p, rfl⟩ := held
    simp [bool, mismatch, Value.IsBool]
  | list | table =>
    obtain ⟨p, found, rfl, -⟩ := held
    simp [bool, mismatch, Value.IsBool]

private theorem mapM_text_eq_ok_iff {items : List Value} {found : List (Tree π φ)}
    (held : ItemsHeldBy items found) (ss : List String) :
    found.mapM text = .ok ss ↔ (∀ v ∈ items, v.IsText) ∧ items.map Value.asText = ss := by
  induction items generalizing found ss with
  | nil =>
    obtain rfl : found = [] := held
    simp [pure, Except.pure]
  | cons v rest ih =>
    obtain ⟨t, others, rfl, first, later⟩ := held
    rw [List.mapM_cons]
    constructor
    · intro read
      obtain ⟨s, own, read⟩ := bind_eq_ok.mp read
      obtain ⟨more, behind, read⟩ := bind_eq_ok.mp read
      cases read
      obtain ⟨fits, rfl⟩ := (reads_text v t first s).mp own
      obtain ⟨all, rfl⟩ := (ih later more).mp behind
      exact ⟨List.forall_mem_cons.mpr ⟨fits, all⟩, rfl⟩
    · rintro ⟨all, rfl⟩
      obtain ⟨fits, others⟩ := List.forall_mem_cons.mp all
      rw [(reads_text v t first _).mpr ⟨fits, rfl⟩, (ih later _).mpr ⟨others, rfl⟩]
      rfl

theorem reads_texts : Reads (π := π) (φ := φ) texts Value.IsTexts Value.asTexts := by
  intro v t held a
  cases v with
  | list items =>
    obtain ⟨p, found, rfl, inside⟩ := held
    rw [texts, bind_eq_ok]
    simp [mapM_text_eq_ok_iff inside, ended, bind, Except.bind, Value.IsTexts, Value.asTexts]
  | null | bool | text | integer | float =>
    obtain ⟨p, rfl⟩ := held
    simp [texts, mismatch, Value.IsTexts]
  | table =>
    obtain ⟨p, found, rfl, -⟩ := held
    simp [texts, mismatch, Value.IsTexts]

theorem reads_nullable {decode : Tree π φ → Decoded π φ α} {fit : Value → Prop} {read : Value → α}
    (reads : Reads decode fit read) :
    Reads (nullable decode) (Value.OrNull fit) (Value.asOption read) := by
  intro v t held a
  have some_iff : (decode t).map some = .ok a ↔ fit v ∧ some (read v) = a := by
    have whole := reads v t held
    cases found : decode t with
    | error m =>
      have unfit : ¬ fit v := by
        intro fits
        have read := (whole _).mpr ⟨fits, rfl⟩
        rw [found] at read
        cases read
      simp [Except.map, unfit]
    | ok b =>
      obtain ⟨fits, rfl⟩ := (whole b).mp found
      simp [Except.map, fits]
  cases v with
  | null =>
    obtain ⟨p, rfl⟩ := held
    simp [nullable, Value.OrNull, Value.asOption]
  | bool | text | integer | float =>
    obtain ⟨p, rfl⟩ := held
    simpa [nullable, Value.OrNull, Value.asOption] using some_iff
  | list | table =>
    obtain ⟨p, found, rfl, -⟩ := held
    simpa [nullable, Value.OrNull, Value.asOption] using some_iff

private theorem writings_eq_ok_iff {decode : Tree π φ → Decoded π φ α} {fit : Value → Prop}
    {read : Value → α} {ms : List (String × Value)} {found : List (String × π × Tree π φ)}
    (held : MembersHeldBy ms found)
    (reads : Reads decode fit read) (start n : OrderedMap α) :
    writings decode start found = .ok n ↔
      (∀ m ∈ ms, fit m.2) ∧
        (ms.map fun m => (m.1, read m.2)).foldl (fun m w => m.insert w.1 w.2) start = n := by
  induction ms generalizing found start with
  | nil =>
    obtain rfl : found = [] := held
    simp [writings]
  | cons m rest ih =>
    obtain ⟨p, t, others, rfl, first, later⟩ := held
    rw [writings, bind_eq_ok]
    simp only [reads m.2 t first, ih later, List.map_cons, List.foldl_cons, List.forall_mem_cons]
    constructor
    · rintro ⟨a, ⟨fits, rfl⟩, all, rfl⟩
      exact ⟨⟨fits, all⟩, rfl⟩
    · rintro ⟨⟨fits, all⟩, rfl⟩
      exact ⟨_, ⟨fits, rfl⟩, all, rfl⟩

theorem reads_map {decode : Tree π φ → Decoded π φ α} {fit : Value → Prop} {read : Value → α}
    (reads : Reads decode fit read) :
    Reads (map decode) (Value.IsMap fit) (Value.asMap read) := by
  intro v t held n
  cases v with
  | table ms =>
    obtain ⟨p, found, rfl, inside⟩ := held
    rw [map, bind_eq_ok]
    simp [writings_eq_ok_iff inside reads, ended, bind, Except.bind, Value.IsMap,
      Value.asMap, Value.members, OrderedMap.ofList]
  | null | bool | text | integer | float =>
    obtain ⟨p, rfl⟩ := held
    simp [map, mismatch, Value.IsMap]
  | list =>
    obtain ⟨p, found, rfl, -⟩ := held
    simp [map, mismatch, Value.IsMap]

private theorem directiveInteger_eq {i : Int} (fits : fitsWord i = true) :
    directiveInteger i = (Value.integer i).asDirective := by
  simp only [fitsWord, Bool.and_eq_true, decide_eq_true_eq] at fits
  simp only [directiveInteger, Value.asDirective]
  split
  · rfl
  · have positive : ¬ i < 0 := by omega
    have natural : i.natAbs = i.toNat := by omega
    simp only [Binary64.ofNat, natural, positive, decide_false]

theorem reads_directive : Reads (π := π) (φ := φ) directiveValue
    (fun v => v.IsScalar ∧ v.InWord) Value.asDirective := by
  intro v t held d
  cases v with
  | integer i =>
    obtain ⟨p, rfl⟩ := held
    by_cases fits : fitsWord i = true
    · simp [directiveValue, unreadable?, fits, directiveInteger_eq fits, Value.IsScalar,
        Value.InWord]
    · simp [directiveValue, unreadable?, fits, Value.InWord]
  | bool | float | text =>
    obtain ⟨p, rfl⟩ := held
    simp [directiveValue, unreadable?, Value.IsScalar, Value.InWord, Value.asDirective]
  | null =>
    obtain ⟨p, rfl⟩ := held
    simp [directiveValue, unreadable?, Value.IsScalar]
  | list | table =>
    obtain ⟨p, found, rfl, -⟩ := held
    unfold directiveValue
    split <;> simp [Value.IsScalar]

end Decode

end RubyScaffold
