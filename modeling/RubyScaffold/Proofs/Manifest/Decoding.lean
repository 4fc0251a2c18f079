import RubyScaffold.Manifest.Decode
import RubyScaffold.Manifest.Writing
import RubyScaffold.Proofs.Json.Reading
import RubyScaffold.Proofs.OrderedMap

/-!
A tree that holds a written value is decoded to what was written: texts, maps with their order, and
records whose fields all stand in a table.
-/

set_option autoImplicit false

namespace RubyScaffold

open Json (Value ItemsHeldBy MembersHeldBy)

namespace Decode

variable {π φ : Type}

private theorem text_of_heldBy {s : String} {t : Tree π φ} (held : (Value.text s).HeldBy t) :
    text t = .ok s := by
  obtain ⟨p, rfl⟩ := held
  rfl

private theorem bool_of_heldBy {b : Bool} {t : Tree π φ} (held : (Value.bool b).HeldBy t) :
    bool t = .ok b := by
  obtain ⟨p, rfl⟩ := held
  rfl

private theorem mapM_text_of_heldBy {ss : List String} {found : List (Tree π φ)}
    (held : ItemsHeldBy (ss.map .text) found) : found.mapM text = .ok ss := by
  induction ss generalizing found with
  | nil =>
    obtain rfl : found = [] := held
    rfl
  | cons s ss ih =>
    obtain ⟨t, others, rfl, first, rest⟩ := held
    rw [List.mapM_cons, text_of_heldBy first, ih rest]
    rfl

private theorem texts_of_heldBy {ss : List String} {t : Tree π φ} (held : (textList ss).HeldBy t) :
    texts t = .ok ss := by
  obtain ⟨p, found, rfl, items⟩ := held
  rw [texts, mapM_text_of_heldBy items]
  rfl

/-- Null stands for a missing value only where the value itself is never null. -/
private theorem nullable_of_heldBy {α : Type} {f : α → Value} {decode : Tree π φ → Decoded π φ α}
    (reads : ∀ {a t}, (f a).HeldBy t → decode t = .ok a)
    (strict : ∀ p a, decode (.null p) ≠ .ok a) {o : Option α} {t : Tree π φ}
    (held : (optional f o).HeldBy t) : nullable decode t = .ok o := by
  cases o with
  | none =>
    obtain ⟨p, rfl⟩ := held
    rfl
  | some a =>
    have read := reads held
    unfold nullable
    split
    · next p => exact absurd read (strict p a)
    · rw [read]
      rfl

/-- The members that hold entries are read as those entries and written one after the other. -/
private theorem writings_of_heldBy {α : Type} {f : α → Value} {decode : Tree π φ → Decoded π φ α}
    {entries : List (String × α)}
    (reads : ∀ e ∈ entries, ∀ t, (f e.2).HeldBy t → decode t = .ok e.2) {m : OrderedMap α}
    {found : List (String × π × Tree π φ)}
    (held : MembersHeldBy (entries.map fun e => (e.1, f e.2)) found) :
    writings decode m found = .ok (entries.foldl (fun m w => m.insert w.1 w.2) m) := by
  induction entries generalizing m found with
  | nil =>
    obtain rfl : found = [] := held
    rfl
  | cons e entries ih =>
    obtain ⟨p, t, others, rfl, own, rest⟩ := held
    rw [writings, reads e List.mem_cons_self t own, List.foldl_cons]
    exact ih (fun e mem => reads e (List.mem_cons_of_mem _ mem)) rest

private theorem map_of_heldBy {α : Type} {f : α → Value} {decode : Tree π φ → Decoded π φ α}
    {m : OrderedMap α} (reads : ∀ e ∈ m.entries, ∀ t, (f e.2).HeldBy t → decode t = .ok e.2)
    {t : Tree π φ} (held : (m.toJson f).HeldBy t) : map decode t = .ok m := by
  obtain ⟨p, found, rfl, members⟩ := held
  have written := writings_of_heldBy reads (m := .empty) members
  have same : m.entries.foldl (fun m w => m.insert w.1 w.2) .empty = m := m.ofList_entries
  rw [same] at written
  rw [map, written]
  rfl

private theorem directiveInteger_toInt (i : Int64) : directiveInteger i.toInt = .integer i := by
  have low := Int64.le_toInt i
  have high := Int64.toInt_lt i
  have fits : -0x8000000000000000 ≤ i.toInt ∧ i.toInt < 0x8000000000000000 := ⟨low, high⟩
  rw [directiveInteger, if_pos fits, Int64.ofInt_toInt]

private theorem directiveValue_of_heldBy {d : DirectiveValue} (exact : ∀ x, d ≠ .float x)
    {t : Tree π φ} (held : d.toJson.HeldBy t) : directiveValue t = .ok d := by
  cases d with
  | bool b =>
    obtain ⟨p, rfl⟩ := held
    rfl
  | integer i =>
    obtain ⟨p, rfl⟩ := held
    have low := Int64.le_toInt i
    have high := Int64.toInt_lt i
    have fits : fitsWord i.toInt = true := by simp only [fitsWord, Bool.and_eq_true, decide_eq_true_eq]; omega
    simp only [directiveValue, unreadable?, if_pos fits, directiveInteger_toInt]
  | float x => exact absurd rfl (exact x)
  | text s =>
    obtain ⟨p, rfl⟩ := held
    rfl

private theorem settings_of_heldBy {surplus : List (Tree π φ) → Option φ → Option φ} {s : Settings}
    {t : Tree π φ} (held : (Manifest.settingsJson s).HeldBy t) :
    settingsRecord.decode surplus {} t = .ok s := by
  obtain ⟨p, found, rfl, q, t, others, rfl, own, rfl⟩ := held
  have read : bool t = .ok s.frozenStringLiteral := bool_of_heldBy own
  simp [Record.decode, settingsRecord, Record.members, read, ended, bind, Except.bind,
    Settings.withFrozenStringLiteral]

private theorem class_of_heldBy {surplus : List (Tree π φ) → Option φ → Option φ}
    {c : ManifestClass} (exact : ∀ e ∈ c.directives.entries, ∀ x, e.2 ≠ .float x)
    {t : Tree π φ} (held : (Manifest.classJson c).HeldBy t) :
    classRecord.decode surplus { name := "" } t = .ok c := by
  obtain ⟨p, found, rfl, members⟩ := held
  obtain ⟨_, name, _, rfl, nameHeld, _, parent, _, rfl, parentHeld, _, scopes, _, rfl, scopesHeld,
    _, includes, _, rfl, includesHeld, _, requires, _, rfl, requiresHeld,
    _, relative, _, rfl, relativeHeld, _, fields, _, rfl, fieldsHeld,
    _, methods, _, rfl, methodsHeld, _, contents, _, rfl, contentsHeld,
    _, directives, _, rfl, directivesHeld, rfl⟩ := members
  have noText : ∀ (p : π) (s : String), text (.null p : Tree π φ) ≠ .ok s := by
    intro p s read
    cases read
  have noTexts : ∀ (p : π) (ss : List String), texts (.null p : Tree π φ) ≠ .ok ss := by
    intro p ss read
    cases read
  have nameRead := text_of_heldBy nameHeld
  have parentRead := nullable_of_heldBy text_of_heldBy noText parentHeld
  have scopesRead := texts_of_heldBy scopesHeld
  have includesRead := texts_of_heldBy includesHeld
  have requiresRead := texts_of_heldBy requiresHeld
  have relativeRead := texts_of_heldBy relativeHeld
  have fieldsRead := texts_of_heldBy fieldsHeld
  have methodsRead : map (nullable texts) methods = .ok c.methods := map_of_heldBy
    (fun _ _ _ held => nullable_of_heldBy texts_of_heldBy noTexts held) methodsHeld
  have contentsRead := texts_of_heldBy contentsHeld
  have directivesRead : map directiveValue directives = .ok c.directives := map_of_heldBy
    (fun e mem _ held => directiveValue_of_heldBy (exact e mem) held) directivesHeld
  simp [Record.decode, classRecord, Record.members, nameRead, parentRead, scopesRead, includesRead,
    requiresRead, relativeRead, fieldsRead, methodsRead, contentsRead, directivesRead, ended, bind,
    Except.bind]

theorem manifest_of_heldBy {surplus : List (Tree π φ) → Option φ → Option φ} {m : Manifest}
    (exact : ∀ e ∈ m.cls.directives.entries, ∀ x, e.2 ≠ .float x) {t : Tree π φ}
    (held : m.toJson.HeldBy t) : manifest surplus t = .ok m := by
  obtain ⟨p, found, rfl, _, settings, _, rfl, settingsHeld, _, cls, _, rfl, clsHeld, rfl⟩ := held
  have settingsRead : settingsRecord.decode surplus {} settings = .ok m.settings :=
    settings_of_heldBy settingsHeld
  have clsRead : classRecord.decode surplus { name := "" } cls = .ok m.cls :=
    class_of_heldBy exact clsHeld
  rw [manifest, Record.decode]
  simp [manifestRecord, Record.members, settingsRead, clsRead, ended, bind, Except.bind]

private theorem Record.members_error {α : Type} {r : Record π φ α} {key : String} {place : π}
    {t : Tree π φ} (known : r.fields.contains key = true)
    (refused : ∀ a, ∃ m, r.put a key t = .error m) {found : List (String × π × Tree π φ)}
    (mem : (key, place, t) ∈ found) (seen : List String) (a : α) :
    ∃ m, r.members seen a found = .error m := by
  induction found generalizing seen a with
  | nil => cases mem
  | cons entry rest ih =>
    obtain ⟨other, q, u⟩ := entry
    rw [Record.members]
    by_cases same : (key, place, t) = (other, q, u)
    · cases same
      rw [known]
      by_cases old : seen.contains key = true
      · exact ⟨_, by simp only [old, if_true]; rfl⟩
      · obtain ⟨m, bad⟩ := refused a
        exact ⟨m, by simp only [old, bad]; rfl⟩
    · have later : (key, place, t) ∈ rest := (List.mem_cons.mp mem).resolve_left same
      split
      · split
        · cases ignored u with
          | error m => exact ⟨m, rfl⟩
          | ok _ => exact ih later seen a
        · exact ⟨_, rfl⟩
      · split
        · exact ⟨_, rfl⟩
        · cases r.put a other u with
          | error m => exact ⟨m, rfl⟩
          | ok b => exact ih later (other :: seen) b

theorem Record.decode_error {α : Type} {r : Record π φ α} {key : String} {place p : π}
    {t : Tree π φ} (known : r.fields.contains key = true)
    (refused : ∀ a, ∃ m, r.put a key t = .error m) {found : List (String × π × Tree π φ)}
    (mem : (key, place, t) ∈ found) (surplus : List (Tree π φ) → Option φ → Option φ) (start : α)
    (ending : Option φ) : ∃ m, r.decode surplus start (.table p found ending) = .error m := by
  obtain ⟨m, bad⟩ := members_error known refused mem [] start
  exact ⟨m, by rw [Record.decode, bad]; rfl⟩

end Decode

end RubyScaffold
