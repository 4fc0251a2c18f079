import RubyScaffold.Proofs.Manifest.Offenders

/-!
What a record has from a field that its tree names. No field is put twice, so that what it was put
to is what the record holds in the end, whatever else the tree says.
-/

set_option autoImplicit false

namespace RubyScaffold

variable {π φ α : Type}

namespace Decode.Record

variable {r : Record π φ α} {Q : α → Prop} {key : String} {u : Tree π φ}

private theorem members_keeps_seen
    (others : ∀ a b k t, Q a → k ≠ key → r.put a k t = .ok b → Q b)
    {found : List (String × π × Tree π φ)} {seen seen' : List String} {a b : α}
    (done : key ∈ seen) (start : Q a) (read : r.members seen a found = .ok (b, seen')) : Q b := by
  induction found generalizing seen a with
  | nil =>
    cases read
    exact start
  | cons m rest ih =>
    obtain ⟨k, p, t⟩ := m
    rw [members] at read
    split at read
    · split at read
      · obtain ⟨-, -, read⟩ := bind_eq_ok.mp read
        exact ih done start read
      · cases read
    · split at read
      · cases read
      · next fresh =>
        have other : k ≠ key := by
          rintro rfl
          exact fresh (List.contains_iff_mem.mpr done)
        obtain ⟨c, put, read⟩ := bind_eq_ok.mp read
        exact ih (List.mem_cons_of_mem _ done) (others a c k t start other put) read

/-- What putting a field brings about holds of the record, if putting other fields does not undo
it. -/
private theorem members_reaches (isField : key ∈ r.fields)
    (own : ∀ a b, r.put a key u = .ok b → Q b)
    (others : ∀ a b k t, Q a → k ≠ key → r.put a k t = .ok b → Q b)
    {found : List (String × π × Tree π φ)} {p : π} (mem : (key, p, u) ∈ found)
    {seen seen' : List String} {a b : α} (read : r.members seen a found = .ok (b, seen')) :
    Q b := by
  induction found generalizing seen a with
  | nil => cases mem
  | cons m rest ih =>
    obtain ⟨k, q, t⟩ := m
    rw [members] at read
    rcases List.mem_cons.mp mem with here | later
    · cases here
      have known : (!r.fields.contains key) = false := by simpa using isField
      rw [known] at read
      simp only [Bool.false_eq_true, if_false] at read
      split at read
      · cases read
      · obtain ⟨c, put, read⟩ := bind_eq_ok.mp read
        exact members_keeps_seen others List.mem_cons_self (own a c put) read
    · split at read
      · split at read
        · obtain ⟨-, -, read⟩ := bind_eq_ok.mp read
          exact ih later read
        · cases read
      · split at read
        · cases read
        · obtain ⟨c, -, read⟩ := bind_eq_ok.mp read
          exact ih later read

private theorem items_reaches (own : ∀ a b, r.put a key u = .ok b → Q b)
    (others : ∀ a b k t, Q a → k ≠ key → r.put a k t = .ok b → Q b)
    {fields : List String} (once : fields.Nodup) {found : List (Tree π φ)} {i : Nat}
    (field : fields[i]? = some key) (item : found[i]? = some u)
    {a : α} {left : α × List String × List (Tree π φ)}
    (read : r.items a fields found = .ok left) : Q left.1 := by
  induction fields generalizing a found i with
  | nil => cases field
  | cons k fields ih =>
    obtain ⟨fresh, once⟩ := List.nodup_cons.mp once
    cases found with
    | nil => cases item
    | cons t rest =>
      cases i with
      | zero =>
        cases field
        cases item
        obtain ⟨b, put, read⟩ := bind_eq_ok.mp read
        refine items_keeps others ?_ (own a b put) read
        rintro j k t later - rfl
        exact fresh (List.mem_of_getElem? later)
      | succ i =>
        obtain ⟨b, -, read⟩ := bind_eq_ok.mp read
        exact ih once field item read

private theorem decode_reaches (once : r.fields.Nodup) (isField : key ∈ r.fields)
    (own : ∀ a b, r.put a key u = .ok b → Q b)
    (others : ∀ a b k t, Q a → k ≠ key → r.put a k t = .ok b → Q b)
    {surplus : List (Tree π φ) → Option φ → Option φ} {t : Tree π φ}
    (there : u ∈ t.under r.fields key) {a b : α} (read : r.decode surplus a t = .ok b) : Q b := by
  rcases made_of_decode read with
    ⟨place, found, ending, seen, rfl, members⟩ | ⟨place, found, ending, left, rfl, items⟩
  · obtain ⟨p, mem⟩ := Tree.mem_under_table.mp there
    exact members_reaches isField own others mem members
  · obtain ⟨i, field, item⟩ := Tree.mem_under_list.mp there
    exact items_reaches own others once field item items

/-- A part of a record that one field sets, and no other changes, is what that field gives. -/
private theorem part_of_decode {β : Type} (part : α → β) {given : Decoded π φ β}
    (once : r.fields.Nodup) (isField : key ∈ r.fields)
    (own : ∀ a b, r.put a key u = .ok b → given = .ok (part b))
    (others : ∀ a b k t, k ≠ key → r.put a k t = .ok b → part b = part a)
    {surplus : List (Tree π φ) → Option φ → Option φ} {t : Tree π φ}
    (there : u ∈ t.under r.fields key) {a b : α} (read : r.decode surplus a t = .ok b) :
    given = .ok (part b) := by
  refine decode_reaches (Q := fun a => given = .ok (part a)) once isField own ?_ there read
  intro a b k t set other put
  rwa [others a b k t other put]

end Decode.Record

namespace Decode

variable {surplus : List (Tree π φ) → Option φ → Option φ}

private theorem maps_of_put {c d : ManifestClass} {key : String} {t : Tree π φ}
    (put : classRecord.put c key t = .ok d) :
    (if key = "methods" then map (nullable texts) t = .ok d.methods else d.methods = c.methods) ∧
    (if key = "directives" then map directiveValue t = .ok d.directives
      else d.directives = c.directives) := by
  simp only [classRecord] at put
  split at put
  case h_11 notMethods _ notDirectives =>
    cases put
    exact ⟨by rw [if_neg notMethods], by rw [if_neg notDirectives]⟩
  all_goals
    obtain ⟨x, own, put⟩ := bind_eq_ok.mp put
    cases put
    simp [own]

theorem maps_of_decode {cls u : Tree π φ} {c : ManifestClass}
    (read : classRecord.decode surplus { name := "" } cls = .ok c) :
    (u ∈ cls.under Schema.classKeys "methods" → map (nullable texts) u = .ok c.methods) ∧
    (u ∈ cls.under Schema.classKeys "directives" → map directiveValue u = .ok c.directives) := by
  have once : Schema.classKeys.Nodup := by decide
  constructor
  · intro there
    have isField : "methods" ∈ Schema.classKeys := by decide
    refine Record.part_of_decode (fun c : ManifestClass => c.methods) once isField
      (fun a b put => ?_) (fun a b k t other put => ?_) there read
    · simpa using (maps_of_put put).1
    · simpa [other] using (maps_of_put put).1
  · intro there
    have isField : "directives" ∈ Schema.classKeys := by decide
    refine Record.part_of_decode (fun c : ManifestClass => c.directives) once isField
      (fun a b put => ?_) (fun a b k t other put => ?_) there read
    · simpa using (maps_of_put put).2
    · simpa [other] using (maps_of_put put).2

theorem cls_of_manifest {root cls : Tree π φ} {m : Manifest}
    (read : manifest surplus root = .ok m)
    (there : cls ∈ root.under ["settings", "class"] "class") :
    classRecord.decode surplus { name := "" } cls = .ok m.cls := by
  have once : ["settings", "class"].Nodup := by decide
  have isField : "class" ∈ ["settings", "class"] := by decide
  refine Record.part_of_decode (fun m : Manifest => m.cls) once isField
    (fun a b put => ?_) (fun a b k t other put => ?_) there read
  · obtain ⟨c, own, put⟩ := bind_eq_ok.mp put
    cases put
    exact own
  · simp only [manifestRecord] at put
    split at put
    · obtain ⟨s, -, put⟩ := bind_eq_ok.mp put
      cases put
      rfl
    · exact absurd rfl other
    · cases put
      rfl

end Decode

end RubyScaffold
