import RubyScaffold.Proofs.Json.Words
import RubyScaffold.Proofs.Manifest.Records

/-!
The settings, the class and the manifest that tables give: exactly those that the schema describes,
and none where the members do not fit it.
-/

set_option autoImplicit false

namespace RubyScaffold

open Json (Value MembersHeldBy MembersShownBy)

namespace Schema

def classStep (c : ManifestClass) (key : String) (v : Value) : ManifestClass :=
  match key with
  | "name" => { c with name := v.asText }
  | "parent" => { c with parent := v.asOption Value.asText }
  | "modules" => { c with scopes := v.asTexts }
  | "includes" => { c with includes := v.asTexts }
  | "requires" => { c with requires := v.asTexts }
  | "relative_requires" => { c with relativeRequires := v.asTexts }
  | "fields" => { c with fields := v.asTexts }
  | "methods" => { c with methods := v.asMap (Value.asOption Value.asTexts) }
  | "top_contents" => { c with topContents := v.asTexts }
  | "directives" => { c with directives := v.asMap Value.asDirective }
  | _ => c

private theorem classOn_member (c : ManifestClass) (key : String) (v : Value)
    (rest : List (String × Value)) (known : key ∈ classKeys) (fresh : rest.lookup key = none) :
    classOn (classStep c key v) rest = classOn c ((key, v) :: rest) := by
  simp only [classKeys, List.mem_cons, List.not_mem_nil, or_false] at known
  rcases known with rfl | rfl | rfl | rfl | rfl | rfl | rfl | rfl | rfl | rfl <;>
    simp [classOn, classStep, field, List.lookup_cons, fresh]

private theorem settingsOn_member (s : Settings) (key : String) (v : Value)
    (rest : List (String × Value)) (known : key ∈ ["frozen_string_literal"])
    (fresh : rest.lookup key = none) :
    settingsOn (s.withFrozenStringLiteral v.asBool) rest = settingsOn s ((key, v) :: rest) := by
  obtain rfl := List.mem_singleton.mp known
  simp [settingsOn, field, Settings.withFrozenStringLiteral, fresh]

def DirectivesInWord (ms : List (String × Value)) : Prop :=
  ∀ v, ("directives", v) ∈ ms → ∀ m ∈ v.members, m.2.InWord

def MemberReads (key : String) (v : Value) : Prop :=
  MemberFits key v ∧ (key = "directives" → ∀ m ∈ v.members, m.2.InWord)

private theorem memberReads_iff {key : String} (other : key ≠ "directives") (v : Value) :
    MemberReads key v ↔ MemberFits key v := by
  simp [MemberReads, other]

def manifestStep (m : Manifest) (key : String) (v : Value) : Manifest :=
  match key with
  | "settings" => { m with settings := settingsOf v.members }
  | "class" => { m with cls := classOf v.members }
  | _ => m

private theorem manifestOn_member (m : Manifest) (key : String) (v : Value)
    (rest : List (String × Value)) (known : key ∈ ["settings", "class"])
    (fresh : rest.lookup key = none) :
    manifestOn (manifestStep m key v) rest = manifestOn m ((key, v) :: rest) := by
  simp only [List.mem_cons, List.not_mem_nil, or_false] at known
  rcases known with rfl | rfl <;>
    simp [manifestOn, manifestStep, field, List.lookup_cons, fresh]

/-- Whether the settings and the class, where they are present, are tables. -/
def Sections (ms : List (String × Value)) : Prop :=
  ∀ m ∈ ms, m.1 = "settings" ∨ m.1 = "class" → ∃ inner, m.2 = .table inner

/-- Whether all whole numbers among the directives of a manifest fit 64 bits. -/
def ClassInWord (ms : List (String × Value)) : Prop :=
  ∀ v, ("class", v) ∈ ms → DirectivesInWord v.members

def SectionReads (key : String) (v : Value) : Prop :=
  (key = "settings" → SettingsFit v.members) ∧
    (key = "class" → ClassFits v.members ∧ DirectivesInWord v.members)

end Schema

namespace Decode

open Schema

variable {π φ α β : Type} {surplus : List (Tree π φ) → Option φ → Option φ}

private theorem put_eq_ok_iff {x : Decoded π φ α} {fit : Prop} {a : α}
    (own : ∀ b, x = .ok b ↔ fit ∧ a = b) (set : α → β) (b : β) :
    (do .ok (set (← x)) : Decoded π φ β) = .ok b ↔ fit ∧ set a = b := by
  rw [bind_eq_ok]
  constructor
  · rintro ⟨c, found, made⟩
    obtain ⟨fits, rfl⟩ := (own c).mp found
    exact ⟨fits, Except.ok.inj made⟩
  · rintro ⟨fits, rfl⟩
    exact ⟨a, (own a).mpr ⟨fits, rfl⟩, rfl⟩

private theorem isMap_and {fit more : Value → Prop} (v : Value) :
    v.IsMap (fun v => fit v ∧ more v) ↔ v.IsMap fit ∧ ∀ m ∈ v.members, more m.2 := by
  cases v with
  | table ms =>
    constructor
    · intro all
      exact ⟨fun m mem => (all m mem).1, fun m mem => (all m mem).2⟩
    · rintro ⟨fits, others⟩ m mem
      exact ⟨fits m mem, others m mem⟩
  | null | bool | integer | float | text | list => simp [Value.IsMap]

private theorem put_class_eq_ok_iff {key : String} (known : key ∈ classKeys) {v : Value}
    {t : Tree π φ} (held : v.HeldBy t) (c d : ManifestClass) :
    classRecord.put c key t = .ok d ↔ MemberReads key v ∧ classStep c key v = d := by
  have text_put := put_eq_ok_iff (β := ManifestClass) (reads_text v t held)
  have texts_put := put_eq_ok_iff (β := ManifestClass) (reads_texts v t held)
  have parent_put := put_eq_ok_iff (β := ManifestClass) (reads_nullable reads_text v t held)
  have methods_put :=
    put_eq_ok_iff (β := ManifestClass) (reads_map (reads_nullable reads_texts) v t held)
  have directives_put := put_eq_ok_iff (β := ManifestClass) (reads_map reads_directive v t held)
  simp only [classKeys, List.mem_cons, List.not_mem_nil, or_false] at known
  rcases known with rfl | rfl | rfl | rfl | rfl | rfl | rfl | rfl | rfl | rfl
  · rw [memberReads_iff (by decide)]
    exact text_put (fun s => { c with name := s }) d
  · rw [memberReads_iff (by decide)]
    exact parent_put (fun o => { c with parent := o }) d
  · rw [memberReads_iff (by decide)]
    exact texts_put (fun ss => { c with scopes := ss }) d
  · rw [memberReads_iff (by decide)]
    exact texts_put (fun ss => { c with includes := ss }) d
  · rw [memberReads_iff (by decide)]
    exact texts_put (fun ss => { c with requires := ss }) d
  · rw [memberReads_iff (by decide)]
    exact texts_put (fun ss => { c with relativeRequires := ss }) d
  · rw [memberReads_iff (by decide)]
    exact texts_put (fun ss => { c with fields := ss }) d
  · rw [memberReads_iff (by decide)]
    exact methods_put (fun m => { c with methods := m }) d
  · rw [memberReads_iff (by decide)]
    exact texts_put (fun ss => { c with topContents := ss }) d
  · have fits : MemberReads "directives" v ↔
        v.IsMap fun w => w.IsScalar ∧ w.InWord := by
      simp [MemberReads, MemberFits, isMap_and]
    rw [fits]
    exact directives_put (fun m => { c with directives := m }) d

private theorem class_eq_ok_iff {ms : List (String × Value)} {found : List (String × π × Tree π φ)}
    (held : MembersHeldBy ms found) (p : π) (c : ManifestClass) :
    classRecord.decode surplus { name := "" } (.table p found none) = .ok c ↔
      ClassFits ms ∧ DirectivesInWord ms ∧ classOf ms = c := by
  have shown : MembersShownBy ms .everything found :=
    (Json.membersShownBy_everything ms found).mpr held
  rw [Record.decode_strict_eq_ok_iff MemberReads classStep rfl shown fun m _ known t own =>
    put_class_eq_ok_iff known ((Json.shownBy_everything m.2 t).mp own)]
  constructor
  · rintro ⟨known, once, named, fits, rfl⟩
    refine ⟨⟨known, once, named "name" rfl, fun m mem => (fits m mem).1⟩,
      fun v mem => (fits _ mem).2 rfl, ?_⟩
    exact (foldl_eq (fun _ => rfl) classOn_member known once _).symm
  · rintro ⟨⟨known, once, named, fits⟩, words, rfl⟩
    refine ⟨known, once, ?_, ?_, foldl_eq (fun _ => rfl) classOn_member known once _⟩
    · rintro key ⟨⟩
      exact named
    · rintro ⟨key, v⟩ mem
      refine ⟨fits _ mem, ?_⟩
      rintro rfl
      exact words v mem

private theorem settings_eq_ok_iff {ms : List (String × Value)} {asked : Interest}
    {found : List (String × π × Tree π φ)} (shown : MembersShownBy ms asked found)
    (wanted : asked.member "frozen_string_literal" = .everything) (p : π) (s : Settings) :
    settingsRecord.decode surplus {} (.table p found none) = .ok s ↔
      SettingsFit ms ∧ settingsOf ms = s := by
  let r : Record π φ Settings := settingsRecord
  rw [Record.decode_table_eq_ok_iff (fun _ v => v.IsBool)
    (fun s _ v => s.withFrozenStringLiteral v.asBool) shown]
  · have described : settingsOn {} (r.known ms) = settingsOf ms := by
      rw [settingsOf, settingsOn, settingsOn, field, field, Record.lookup_known List.mem_cons_self]
    have fold := foldl_eq (fun _ => rfl) settingsOn_member
      fun m (mem : m ∈ r.known ms) => (Record.mem_known.mp mem).2
    constructor
    · rintro ⟨-, once, -, fits, rfl⟩
      refine ⟨⟨Record.nodup_known_iff.mp once _ List.mem_cons_self, fun v mem =>
        fits _ (Record.mem_known.mpr ⟨mem, List.mem_cons_self⟩)⟩, ?_⟩
      exact described.symm.trans (fold once {}).symm
    · rintro ⟨⟨once, fits⟩, rfl⟩
      have nodup : (keys (r.known ms)).Nodup := Record.nodup_known_iff.mpr fun key isField =>
        List.mem_singleton.mp isField ▸ once
      refine ⟨fun _ _ => .inr rfl, nodup, by simp [settingsRecord], ?_,
        (fold nodup {}).trans described⟩
      rintro ⟨key, v⟩ mem
      obtain ⟨inside, isField⟩ := Record.mem_known.mp mem
      exact fits v (List.mem_singleton.mp isField ▸ inside)
  · intro m _ isField t own a b
    rw [List.mem_singleton.mp isField, wanted] at own
    exact put_eq_ok_iff (reads_bool m.2 t ((Json.shownBy_everything m.2 t).mp own)) _ b

/-- Whether a reader is asked for all of a manifest, but perhaps for the settings of other names. -/
structure Covers (asked : Interest) : Prop where
  root : asked ≠ .nothing
  settings : asked.member "settings" ≠ .nothing
  frozen : (asked.member "settings").member "frozen_string_literal" = .everything
  cls : asked.member "class" = .everything

theorem covers_everything : Covers .everything :=
  ⟨by simp, by simp [Interest.member], rfl, rfl⟩

theorem covers_asked : Covers asked where
  root := by simp [asked]
  settings := by simp [asked, Interest.member]
  frozen := by simp [asked, Interest.member]
  cls := by simp [asked, Interest.member]

/-- A table is a manifest exactly where its members fit the schema and the directives are of 64
bits, and then it is the manifest that they describe. -/
theorem manifest_eq_ok_iff {ms : List (String × Value)} {wanted : Interest}
    (covers : Covers wanted) (sections : Sections ms) {t : Tree π φ}
    (shown : (Value.table ms).ShownBy wanted t) (m : Manifest) :
    manifest surplus t = .ok m ↔ Fits ms ∧ ClassInWord ms ∧ manifestOf ms = m := by
  obtain ⟨p, found, rfl, members⟩ :=
    (Interest.shows_iff covers.root t _).mp shown
  rw [manifest, Record.decode_strict_eq_ok_iff SectionReads manifestStep rfl members]
  · constructor
    · rintro ⟨known, once, described, reads, rfl⟩
      refine ⟨⟨?_, once, described "class" rfl, fun v mem => (reads _ mem).1 rfl,
        fun v mem => ((reads _ mem).2 rfl).1⟩, fun v mem => ((reads _ mem).2 rfl).2, ?_⟩
      · intro m mem
        simpa [manifestRecord] using known m mem
      · exact (foldl_eq (fun _ => rfl) manifestOn_member known once _).symm
    · rintro ⟨⟨known, once, described, settings, cls⟩, words, rfl⟩
      have known' : ∀ m ∈ ms, m.1 ∈ ["settings", "class"] := fun m mem => by
        simpa using known m mem
      refine ⟨known', once, ?_, ?_, foldl_eq (fun _ => rfl) manifestOn_member known' once _⟩
      · rintro key ⟨⟩
        exact described
      · rintro ⟨key, v⟩ mem
        refine ⟨?_, ?_⟩
        · rintro rfl
          exact settings v mem
        · rintro rfl
          exact ⟨cls v mem, words v mem⟩
  · rintro ⟨key, v⟩ mem isField t own a b
    simp only [manifestRecord, List.mem_cons, List.not_mem_nil, or_false] at isField
    obtain ⟨inner, rfl⟩ := sections (key, v) mem isField
    -- of the settings a reader may be asked for one key only, of the class for everything
    rcases isField with rfl | rfl
    · obtain ⟨q, others, rfl, inside⟩ := (Interest.shows_iff covers.settings t _).mp own
      have fits : SectionReads "settings" (.table inner) ↔ SettingsFit inner := by
        simp [SectionReads, Value.members]
      rw [fits]
      exact put_eq_ok_iff (settings_eq_ok_iff inside covers.frozen q)
        (fun s => { a with settings := s }) b
    · rw [covers.cls, Json.shownBy_everything] at own
      obtain ⟨q, others, rfl, inside⟩ := own
      have fits : SectionReads "class" (.table inner) ↔
          ClassFits inner ∧ DirectivesInWord inner := by
        simp [SectionReads, Value.members]
      rw [fits]
      exact put_eq_ok_iff (fun c => (class_eq_ok_iff inside q c).trans and_assoc.symm)
        (fun c => { a with cls := c }) b

end Decode

end RubyScaffold
