import RubyScaffold.Proofs.Json.Progress

/-!
The places that the reader of JSON gives: a text and a key stand in the JSON text, between quotes,
at the place that their tree gives for them.
-/

set_option autoImplicit false

namespace RubyScaffold.Json

open Text (Cursor)

variable {text : List Char} {c : Cursor} {fuel : Nat}

def WrittenAt (text : List Char) (place : Place) (s : String) : Prop :=
  Text.Written quotes text place.start place.stop s

/-- Whether the texts and keys of a tree stand at their places in a JSON text. -/
def Sourced (text : List Char) (t : JsonTree) : Prop :=
  Tree.Sourced (WrittenAt text) (fun _ => False) t

structure ValueSound (text : List Char) (r : JsonTree × Option Cursor) : Prop where
  tree : Sourced text r.1
  after : ∀ after, r.2 = some after → after.In text

structure ItemsSound (text : List Char) (r : List JsonTree × Except (Option Fault) Cursor) :
    Prop where
  items : ∀ t ∈ r.1, Sourced text t
  after : ∀ after, r.2 = .ok after → after.In text

structure MembersSound (text : List Char) (r : List Member × Except (Option Fault) Cursor) :
    Prop where
  keys : ∀ m ∈ r.1, WrittenAt text m.2.1 m.1
  values : ∀ m ∈ r.1, Sourced text m.2.2
  after : ∀ after, r.2 = .ok after → after.In text

private theorem unreadable_sound {place : Place} {f : Fault} :
    ValueSound text (.unreadable place f, none) :=
  ⟨.unreadable, by simp⟩

private theorem itemsSound_nil {f : Option Fault} : ItemsSound text ([], .error f) :=
  ⟨by simp, by simp⟩

private theorem membersSound_nil {f : Option Fault} : MembersSound text ([], .error f) :=
  ⟨by simp, by simp, by simp⟩

private theorem leaf_sound {α : Type} {build : Place → α → JsonTree} {r : Except Fault (α × Cursor)}
    (inside : c.In text)
    (own : ∀ a after, r = .ok (a, after) →
      c.Leads after ∧ Sourced text (build (placeTo c after) a)) :
    ValueSound text (leaf c build r) := by
  unfold leaf
  split
  · next a after =>
    obtain ⟨leads, sourced⟩ := own a after rfl
    refine ⟨sourced, fun d same => ?_⟩
    cases same
    exact inside.leads leads
  · exact unreadable_sound

private theorem value_sound_step
    (items_sound : ∀ depth asked i c, c.In text → ItemsSound text (items fuel depth asked i c))
    (members_sound : ∀ depth asked first c, c.In text →
      MembersSound text (members fuel depth asked first c))
    (depth : Nat) (asked : Interest) (c : Cursor) (inside : c.In text) :
    ValueSound text (value (fuel + 1) depth asked c) := by
  have start : (skipSpace c).In text := inside.leads (skipSpace_leads c)
  have first := Cursor.leads_advance (skipSpace c) 1
  have next := start.leads first
  rw [value.eq_def]
  dsimp only
  split
  · refine leaf_sound start fun a after read => ?_
    obtain ⟨d, own, same⟩ := leads_of_map read
    cases same
    exact ⟨skipValue_leads own, .skipped⟩
  · exact unreadable_sound
  · refine leaf_sound start fun a after read => ?_
    obtain ⟨d, own, same⟩ := leads_of_map read
    cases same
    exact ⟨first.trans (word_leads own), .null⟩
  · refine leaf_sound start fun a after read => ?_
    obtain ⟨d, own, same⟩ := leads_of_map read
    cases same
    exact ⟨first.trans (word_leads own), .bool⟩
  · refine leaf_sound start fun a after read => ?_
    obtain ⟨d, own, same⟩ := leads_of_map read
    cases same
    exact ⟨first.trans (word_leads own), .bool⟩
  · next head =>
    refine leaf_sound start fun s after read => ?_
    obtain ⟨literal, reads, spells⟩ := quoted_reads head read
    exact ⟨reads.leads, .text (start.written reads spells)⟩
  · next wanted _ _ _ _ _ =>
    have found := items_sound (depth - 1) wanted 0 _ next
    split
    · exact unreadable_sound
    · split
      · next ts after eq =>
        rw [eq] at found
        exact ⟨.list found.items, fun d same => by cases same; exact found.after after rfl⟩
      · next ts f eq =>
        rw [eq] at found
        exact ⟨.list found.items, by simp⟩
  · next wanted _ _ _ _ _ =>
    have found := members_sound (depth - 1) wanted true _ next
    split
    · exact unreadable_sound
    · split
      · next ms after eq =>
        rw [eq] at found
        exact ⟨.table found.keys found.values,
          fun d same => by cases same; exact found.after after rfl⟩
      · next ms f eq =>
        rw [eq] at found
        exact ⟨.table found.keys found.values, by simp⟩
  · split
    · refine leaf_sound start fun n after read => ⟨(number_past read).leads, ?_⟩
      cases n with
      | integer i => exact .integer
      | float x => exact .float
    · exact unreadable_sound

private theorem items_sound_step
    (value_sound : ∀ depth asked c, c.In text → ValueSound text (value fuel depth asked c))
    (items_sound : ∀ depth asked i c, c.In text → ItemsSound text (items fuel depth asked i c))
    (depth : Nat) (asked : Interest) (i : Nat) (c : Cursor) (inside : c.In text) :
    ItemsSound text (items (fuel + 1) depth asked i c) := by
  rw [items.eq_def]
  dsimp -zeta only
  extract_lets start fail goOn behind
  have first : start.In text := inside.leads (skipSpace_leads c)
  have next : (start.advance 1).In text := first.leads (Cursor.leads_advance start 1)
  have goes : ∀ c, c.In text → ItemsSound text (goOn c) := by
    intro c there
    have own := value_sound depth (asked.item i) c there
    dsimp only [goOn]
    split
    · next item eq =>
      rw [eq] at own
      exact ⟨by simpa using own.tree, by simp⟩
    · next item after eq =>
      rw [eq] at own
      have others := items_sound depth asked (i + 1) after (own.after after rfl)
      exact ⟨List.forall_mem_cons.mpr ⟨own.tree, others.items⟩, others.after⟩
  split
  · exact itemsSound_nil
  · exact ⟨by simp, fun d same => by cases same; exact next⟩
  · split
    · exact goes _ first
    · split
      · split
        · exact itemsSound_nil
        · exact itemsSound_nil
        · exact goes _ (next.leads (skipSpace_leads _))
      · exact itemsSound_nil

private theorem members_sound_step
    (value_sound : ∀ depth asked c, c.In text → ValueSound text (value fuel depth asked c))
    (members_sound : ∀ depth asked first c, c.In text →
      MembersSound text (members fuel depth asked first c))
    (depth : Nat) (asked : Interest) (first : Bool) (c : Cursor) (inside : c.In text) :
    MembersSound text (members (fuel + 1) depth asked first c) := by
  rw [members.eq_def]
  dsimp -zeta only
  extract_lets start fail goOn behind
  have there : start.In text := inside.leads (skipSpace_leads c)
  have next : (start.advance 1).In text := there.leads (Cursor.leads_advance start 1)
  have goes : ∀ c rest, c.In text → c.rest = '"' :: rest → MembersSound text (goOn c) := by
    intro c rest there quote
    dsimp only [goOn]
    split
    · exact membersSound_nil
    · next key afterKey read =>
      obtain ⟨literal, reads, spells⟩ := quoted_reads quote read
      have written : WrittenAt text (placeTo c afterKey) key := there.written reads spells
      have colon : ((skipSpace afterKey).advance 1).In text :=
        ((there.leads reads.leads).leads (skipSpace_leads _)).leads (Cursor.leads_advance _ 1)
      have stuck : ∀ flaw, MembersSound text ([(key, placeTo c afterKey,
          .unreadable (openPlace (skipSpace afterKey)) (faultAt (skipSpace afterKey) flaw))],
          .error none) := by
        intro flaw
        have broken : Sourced text (.unreadable (openPlace (skipSpace afterKey))
            (faultAt (skipSpace afterKey) flaw)) := .unreadable
        exact ⟨by simpa using written, by simpa using broken, by simp⟩
      split
      · exact stuck _
      · have own := value_sound depth (asked.member key) _ colon
        split
        · next item eq =>
          rw [eq] at own
          exact ⟨by simpa using written, by simpa using own.tree, by simp⟩
        · next item after eq =>
          rw [eq] at own
          have others := members_sound depth asked false after (own.after after rfl)
          exact ⟨List.forall_mem_cons.mpr ⟨written, others.keys⟩,
            List.forall_mem_cons.mpr ⟨own.tree, others.values⟩, others.after⟩
      · exact stuck _
  split
  · exact membersSound_nil
  · exact ⟨by simp, by simp, fun d same => by cases same; exact next⟩
  · next x rest _ head =>
    split
    · split
      · next quote => exact goes _ _ there (quote ▸ head)
      · exact membersSound_nil
    · split
      · split
        · exact membersSound_nil
        · next quote => exact goes _ _ (next.leads (skipSpace_leads _)) quote
        · exact membersSound_nil
        · exact membersSound_nil
      · exact membersSound_nil

/-- Wherever the reader stands in a text, what it delivers stands at its places. -/
private theorem sound (text : List Char) (fuel : Nat) :
    (∀ depth asked c, c.In text → ValueSound text (value fuel depth asked c)) ∧
    (∀ depth asked i c, c.In text → ItemsSound text (items fuel depth asked i c)) ∧
    (∀ depth asked first c, c.In text → MembersSound text (members fuel depth asked first c)) := by
  -- the three readers call each other with less fuel, so the induction carries all of them
  induction fuel with
  | zero =>
    refine ⟨fun depth asked c _ => ?_, fun depth asked i c _ => ?_,
      fun depth asked first c _ => ?_⟩
    · rw [value]
      exact unreadable_sound
    · rw [items]
      exact itemsSound_nil
    · rw [members]
      exact membersSound_nil
  | succ fuel ih =>
    obtain ⟨value_sound, items_sound, members_sound⟩ := ih
    exact ⟨value_sound_step items_sound members_sound, items_sound_step value_sound items_sound,
      members_sound_step value_sound members_sound⟩

/-- The texts and keys that are read from a JSON text stand in it at their places. -/
theorem read_sourced (asked : Interest) (text : String) :
    Sourced text.toList (read asked text).root := by
  have whole := ((sound text.toList (2 * text.toList.length + 2)).1 maxDepth asked
    (.start text.toList) (Cursor.in_start _)).tree
  unfold read
  dsimp only
  split
  · next root eq =>
    rw [eq] at whole
    exact whole
  · next root after eq =>
    rw [eq] at whole
    exact whole

end RubyScaffold.Json
