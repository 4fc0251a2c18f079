import RubyScaffold.Proofs.Class.Soundness
import RubyScaffold.Proofs.Manifest.Fields
import RubyScaffold.Proofs.Manifest.Validation

/-!
Where in a manifest the names stand that the check of its class may complain about. What is wrong
with a decoded class is wrong with something in the tree that it was decoded from.
-/

set_option autoImplicit false

namespace RubyScaffold

variable {π φ α : Type}

/-- What a tree holds under a field of a record: the members of its name, or the item at its
position. -/
def Tree.under (fields : List String) (key : String) : Tree π φ → List (Tree π φ)
  | .table _ members _ => (members.filter fun m => m.1 = key).map fun m => m.2.2
  | .list _ items _ => ((fields.zip items).filter fun f => f.1 = key).map Prod.snd
  | _ => []

theorem Tree.mem_under_table {fields : List String} {key : String} {place : π}
    {members : List (String × π × Tree π φ)} {ending : Option φ} {t : Tree π φ} :
    t ∈ (Tree.table place members ending).under fields key ↔ ∃ p, (key, p, t) ∈ members := by
  simp [under, and_comm, eq_comm]

theorem Tree.mem_under_list {fields : List String} {key : String} {place : π}
    {items : List (Tree π φ)} {ending : Option φ} {t : Tree π φ} :
    t ∈ (Tree.list place items ending).under fields key ↔
      ∃ i : Nat, fields[i]? = some key ∧ items[i]? = some t := by
  have zipped : t ∈ (Tree.list place items ending).under fields key ↔
      (key, t) ∈ fields.zip items := by
    simp [under]
  simp only [zipped, List.mem_iff_getElem?, List.getElem?_zip_eq_some]

namespace Decode.Record

variable {r : Record π φ α} {P : α → Prop} {under : String → Tree π φ → Prop}

/-- What holds of a record from the start and is kept whenever a field is put, holds after the
members of a table. -/
private theorem members_keeps (keeps : ∀ a b key t, P a → under key t → r.put a key t = .ok b → P b)
    {found : List (String × π × Tree π φ)} (inside : ∀ key p t, (key, p, t) ∈ found → under key t)
    {seen seen' : List String} {a b : α} (start : P a)
    (read : r.members seen a found = .ok (b, seen')) : P b := by
  induction found generalizing seen a with
  | nil =>
    cases read
    exact start
  | cons m rest ih =>
    obtain ⟨key, p, t⟩ := m
    have later : ∀ key p t, (key, p, t) ∈ rest → under key t :=
      fun key p t mem => inside key p t (List.mem_cons_of_mem _ mem)
    rw [members] at read
    split at read
    · split at read
      · obtain ⟨-, -, read⟩ := bind_eq_ok.mp read
        exact ih later start read
      · cases read
    · split at read
      · cases read
      · obtain ⟨c, put, read⟩ := bind_eq_ok.mp read
        exact ih later (keeps a c key t start (inside key p t List.mem_cons_self) put) read

theorem items_keeps (keeps : ∀ a b key t, P a → under key t → r.put a key t = .ok b → P b)
    {fields : List String} {found : List (Tree π φ)}
    (inside : ∀ (i : Nat) key t, fields[i]? = some key → found[i]? = some t → under key t)
    {a : α} {left : α × List String × List (Tree π φ)} (start : P a)
    (read : r.items a fields found = .ok left) : P left.1 := by
  induction fields generalizing a found with
  | nil =>
    cases read
    exact start
  | cons key fields ih =>
    cases found with
    | nil =>
      cases read
      exact start
    | cons t rest =>
      rw [items] at read
      obtain ⟨b, put, read⟩ := bind_eq_ok.mp read
      exact ih (fun i => inside (i + 1)) (keeps a b key t start (inside 0 key t rfl rfl) put) read

theorem made_of_decode {surplus : List (Tree π φ) → Option φ → Option φ} {t : Tree π φ} {a b : α}
    (read : r.decode surplus a t = .ok b) :
    (∃ place found ending seen, t = .table place found ending ∧
      r.members [] a found = .ok (b, seen)) ∨
    ∃ place found ending left, t = .list place found ending ∧
      r.items a r.fields found = .ok (b, left) := by
  cases t with
  | table place found ending =>
    rw [decode] at read
    obtain ⟨⟨c, seen⟩, members, read⟩ := bind_eq_ok.mp read
    obtain ⟨-, -, read⟩ := bind_eq_ok.mp read
    have same : c = b := by
      split at read
      · split at read
        · exact Except.ok.inj read
        · cases read
      · exact Except.ok.inj read
    exact .inl ⟨place, found, ending, seen, rfl, same ▸ members⟩
  | list place found ending =>
    rw [decode] at read
    obtain ⟨⟨c, left, rest⟩, items, read⟩ := bind_eq_ok.mp read
    have same : c = b := by
      simp only at read
      split at read
      · obtain ⟨-, -, read⟩ := bind_eq_ok.mp read
        exact Except.ok.inj read
      · obtain ⟨-, -, read⟩ := bind_eq_ok.mp read
        split at read
        · split at read
          · cases read
          · exact Except.ok.inj read
        · exact Except.ok.inj read
    exact .inr ⟨place, found, ending, (left, rest), rfl, same ▸ items⟩
  | null | bool | integer | float | text | skipped | unreadable => cases read

private theorem decode_keeps {surplus : List (Tree π φ) → Option φ → Option φ} {t : Tree π φ}
    {a b : α} (keeps : ∀ a b key u, P a → u ∈ t.under r.fields key → r.put a key u = .ok b → P b)
    (start : P a) (read : r.decode surplus a t = .ok b) : P b := by
  rcases made_of_decode read with
    ⟨place, found, ending, seen, rfl, members⟩ | ⟨place, found, ending, left, rfl, items⟩
  · exact members_keeps keeps (fun key p t mem => Tree.mem_under_table.mpr ⟨p, mem⟩) start members
  · exact items_keeps keeps
      (fun i key t field item => Tree.mem_under_list.mpr ⟨i, field, item⟩) start items

end Decode.Record

namespace Decode

private theorem mem_of_mapM_text {items : List (Tree π φ)} {found : List String}
    (read : items.mapM text = .ok found) : ∀ s ∈ found, ∃ p, Tree.text p s ∈ items := by
  induction items generalizing found with
  | nil =>
    cases read
    simp
  | cons t rest ih =>
    rw [List.mapM_cons] at read
    obtain ⟨s, own, read⟩ := bind_eq_ok.mp read
    obtain ⟨others, behind, read⟩ := bind_eq_ok.mp read
    cases read
    refine List.forall_mem_cons.mpr ⟨?_, fun s mem => ?_⟩
    · cases t with
      | text p s' =>
        cases own
        exact ⟨p, List.mem_cons_self⟩
      | null | bool | integer | float | list | table | skipped | unreadable => cases own
    · obtain ⟨p, there⟩ := ih behind s mem
      exact ⟨p, List.mem_cons_of_mem _ there⟩

private theorem exists_item_of_texts {t : Tree π φ} {found : List String}
    (read : texts t = .ok found) {s : String} (mem : s ∈ found) :
    ∃ place items ending p, t = .list place items ending ∧ Tree.text p s ∈ items := by
  cases t with
  | list place items ending =>
    rw [texts] at read
    obtain ⟨ss, own, read⟩ := bind_eq_ok.mp read
    obtain ⟨-, -, read⟩ := bind_eq_ok.mp read
    cases read
    obtain ⟨p, there⟩ := mem_of_mapM_text own s mem
    exact ⟨place, items, ending, p, rfl, there⟩
  | null | bool | integer | float | text | table | skipped | unreadable => cases read

private theorem mem_keys_of_writings {decode : Tree π φ → Decoded π φ α} {start made : OrderedMap α}
    {members : List (String × π × Tree π φ)} (read : writings decode start members = .ok made)
    {key : String} (mem : key ∈ made.keys) :
    key ∈ start.keys ∨ ∃ p t, (key, p, t) ∈ members := by
  induction members generalizing start with
  | nil =>
    cases read
    exact .inl mem
  | cons m rest ih =>
    obtain ⟨k, p, t⟩ := m
    rw [writings] at read
    obtain ⟨a, -, read⟩ := bind_eq_ok.mp read
    rcases ih read with before | ⟨q, u, later⟩
    · rcases (mem_keys_putEntry k a key start.entries).mp before with rfl | before
      · exact .inr ⟨p, t, List.mem_cons_self⟩
      · exact .inl before
    · exact .inr ⟨q, u, List.mem_cons_of_mem _ later⟩

private theorem exists_member_of_map {decode : Tree π φ → Decoded π φ α} {t : Tree π φ}
    {made : OrderedMap α} (read : map decode t = .ok made) {key : String} (mem : key ∈ made.keys) :
    ∃ place members ending p u, t = .table place members ending ∧ (key, p, u) ∈ members := by
  cases t with
  | table place members ending =>
    rw [map] at read
    obtain ⟨m, own, read⟩ := bind_eq_ok.mp read
    obtain ⟨-, -, read⟩ := bind_eq_ok.mp read
    cases read
    rcases mem_keys_of_writings own mem with none | ⟨p, u, there⟩
    · cases none
    · exact ⟨place, members, ending, p, u, rfl, there⟩
  | null | bool | integer | float | text | list | skipped | unreadable => cases read

/-- Where the instance variables and the methods of a class come from: they are what their fields
in a tree say, or there are none. -/
structure ClassFrom (t : Tree π φ) (c : ManifestClass) : Prop where
  fields : c.fields = [] ∨ ∃ u ∈ t.under Schema.classKeys "fields", texts u = .ok c.fields
  methods : c.methods = .empty ∨
    ∃ u ∈ t.under Schema.classKeys "methods", map (nullable texts) u = .ok c.methods

variable {surplus : List (Tree π φ) → Option φ → Option φ}

private theorem classFrom_of_decode {t : Tree π φ} {c : ManifestClass}
    (read : classRecord.decode surplus { name := "" } t = .ok c) : ClassFrom t c := by
  refine Record.decode_keeps (fun a b key u source there put => ?_) ⟨.inl rfl, .inl rfl⟩ read
  simp only [classRecord] at put
  split at put
  case h_11 =>
    cases put
    exact source
  all_goals
    obtain ⟨x, own, put⟩ := bind_eq_ok.mp put
    cases put
  case h_7 => exact ⟨.inr ⟨u, there, own⟩, source.methods⟩
  case h_8 => exact ⟨source.fields, .inr ⟨u, there, own⟩⟩
  all_goals exact ⟨source.fields, source.methods⟩

private theorem exists_class_of_manifest {root : Tree π φ} {m : Manifest}
    (read : manifest surplus root = .ok m) :
    m.cls = { name := "" } ∨
      ∃ t ∈ root.under ["settings", "class"] "class", ClassFrom t m.cls := by
  refine Record.decode_keeps (P := fun m : Manifest => m.cls = { name := "" } ∨
    ∃ t ∈ root.under ["settings", "class"] "class", ClassFrom t m.cls)
    (fun a b key u source there put => ?_) (.inl rfl) read
  simp only [manifestRecord] at put
  split at put
  · obtain ⟨s, -, put⟩ := bind_eq_ok.mp put
    cases put
    exact source
  · obtain ⟨c, own, put⟩ := bind_eq_ok.mp put
    cases put
    exact .inr ⟨u, there, classFrom_of_decode own⟩
  · cases put
    exact source

end Decode

def Tree.itemPlaces (s : String) : Tree π φ → List π
  | .list _ items _ => items.filterMap fun
    | .text p s' => if s' = s then some p else none
    | _ => none
  | _ => []

def Tree.keyPlaces (key : String) : Tree π φ → List π
  | .table _ members _ => (members.filter fun m => m.1 = key).map fun m => m.2.1
  | _ => []

theorem Tree.mem_itemPlaces {s : String} {place p : π} {items : List (Tree π φ)}
    {ending : Option φ} :
    p ∈ (Tree.list place items ending).itemPlaces s ↔ Tree.text p s ∈ items := by
  rw [itemPlaces, List.mem_filterMap]
  constructor
  · rintro ⟨t, mem, found⟩
    split at found
    · split at found
      · next same =>
        cases found
        exact same ▸ mem
      · cases found
    · cases found
  · intro mem
    exact ⟨_, mem, by simp⟩

theorem Tree.mem_keyPlaces {key : String} {place p : π}
    {members : List (String × π × Tree π φ)} {ending : Option φ} :
    p ∈ (Tree.table place members ending).keyPlaces key ↔ ∃ t, (key, p, t) ∈ members := by
  simp [keyPlaces, and_comm, eq_comm]

/-- The places of what a fault is about in the tree of a manifest: the instance variables of its
name, or the keys of a declared constructor. -/
def ClassFault.offenders (fault : ClassFault) (root : Tree π φ) : List π :=
  (root.under ["settings", "class"] "class").flatMap fun cls =>
    match fault with
    | .missingSigil field | .badName field _ =>
      (cls.under Schema.classKeys "fields").flatMap (Tree.itemPlaces field)
    | .constructorClash =>
      (cls.under Schema.classKeys "methods").flatMap (Tree.keyPlaces "initialize")

/-- What the check of a class complains about stands in the tree that the class was decoded from. -/
theorem offenders_ne_nil {surplus : List (Tree π φ) → Option φ → Option φ} {root : Tree π φ}
    {m : Manifest} (read : Decode.manifest surplus root = .ok m) {fault : ClassFault}
    (first : m.cls.fault? = some fault) : fault.offenders root ≠ [] := by
  rcases Decode.exists_class_of_manifest read with empty | ⟨cls, there, source⟩
  · rw [empty] at first
    cases first
  · have field : ∀ s ∈ m.cls.fields,
        ∃ p, p ∈ (cls.under Schema.classKeys "fields").flatMap (Tree.itemPlaces s) := by
      intro s mem
      rcases source.fields with none | ⟨u, under, read⟩
      · rw [none] at mem
        cases mem
      · obtain ⟨place, items, ending, p, rfl, item⟩ := Decode.exists_item_of_texts read mem
        exact ⟨p, List.mem_flatMap.mpr ⟨_, under, Tree.mem_itemPlaces.mpr item⟩⟩
    cases fault?_eq_some_iff.mp first with
    | @field before after name fault split good bad =>
      have mem : name ∈ m.cls.fields := by simp [split]
      obtain ⟨p, item⟩ := field name mem
      cases bad with
      | missingSigil => exact List.ne_nil_of_mem (List.mem_flatMap.mpr ⟨cls, there, item⟩)
      | badName => exact List.ne_nil_of_mem (List.mem_flatMap.mpr ⟨cls, there, item⟩)
    | clash some good declared =>
      rcases source.methods with none | ⟨u, under, read⟩
      · rw [none] at declared
        cases declared
      · obtain ⟨place, members, ending, p, t, rfl, key⟩ :=
          Decode.exists_member_of_map read declared
        have item := List.mem_flatMap.mpr ⟨_, under, Tree.mem_keyPlaces.mpr ⟨t, key⟩⟩
        exact List.ne_nil_of_mem (List.mem_flatMap.mpr ⟨cls, there, item⟩)

end RubyScaffold
