import RubyScaffold.Proofs.Toml.Progress

/-!
What is put together out of the lines of a TOML text. Wherever a value or a table is put, its keys
and texts keep their places.
-/

set_option autoImplicit false

namespace RubyScaffold.Toml

variable {text : List Char}

def WrittenAt (text : List Char) (span : Span) (s : String) : Prop :=
  Text.Written marks text span.offset (span.offset + span.length) s

def IsMoment (t : TomlTree) : Prop :=
  ∃ span s, t = .table span [(momentKey, span, .text span s)] none

/-- Whether the texts and keys of a tree stand at their places in a TOML text, but for dates and
times. -/
def Sourced (text : List Char) (t : TomlTree) : Prop :=
  Tree.Sourced (WrittenAt text) IsMoment t

inductive SlotSourced (text : List Char) : Slot → Prop
  | value {tree : TomlTree} : Sourced text tree → SlotSourced text (.value tree)
  | table {origin : Origin} {span : Span} {entries : Entries} :
      (∀ e ∈ entries, WrittenAt text e.2.1 e.1) → (∀ e ∈ entries, SlotSourced text e.2.2) →
      SlotSourced text (.table origin span entries)
  | tables {span : Span} {each : List (Span × Entries)} :
      (∀ t ∈ each, ∀ e ∈ t.2, WrittenAt text e.2.1 e.1) →
      (∀ t ∈ each, ∀ e ∈ t.2, SlotSourced text e.2.2) → SlotSourced text (.tables span each)

structure EntriesSourced (text : List Char) (entries : Entries) : Prop where
  keys : ∀ e ∈ entries, WrittenAt text e.2.1 e.1
  slots : ∀ e ∈ entries, SlotSourced text e.2.2

def KeySourced (text : List Char) (key : Key) : Prop :=
  WrittenAt text key.span key.name

private theorem entryTrees_eq (entries : Entries) :
    entryTrees entries = entries.map fun e => (e.1, e.2.1, e.2.2.tree) := by
  induction entries with
  | nil => rfl
  | cons e rest ih =>
    obtain ⟨name, span, slot⟩ := e
    rw [entryTrees, ih, List.map_cons]

private theorem tableTrees_eq (each : List (Span × Entries)) :
    tableTrees each = each.map fun t => .table t.1 (entryTrees t.2) none := by
  induction each with
  | nil => rfl
  | cons t rest ih =>
    obtain ⟨span, entries⟩ := t
    rw [tableTrees, ih, List.map_cons]

private theorem sourced_table {span : Span} {entries : Entries}
    (keys : ∀ e ∈ entries, WrittenAt text e.2.1 e.1)
    (trees : ∀ e ∈ entries, Sourced text e.2.2.tree) :
    Sourced text (.table span (entryTrees entries) none) := by
  rw [entryTrees_eq]
  exact .table (List.forall_mem_map.mpr keys) (List.forall_mem_map.mpr trees)

private theorem SlotSourced.tree {slot : Slot} (sourced : SlotSourced text slot) :
    Sourced text slot.tree := by
  induction sourced with
  | value tree => exact tree
  | table keys _ trees => exact sourced_table keys trees
  | tables keys _ trees =>
    rw [Slot.tree, tableTrees_eq]
    exact .list (List.forall_mem_map.mpr fun t mem => sourced_table (keys t mem) (trees t mem))

namespace EntriesSourced

variable {entries : Entries}

theorem nil : EntriesSourced text [] :=
  ⟨by simp, by simp⟩

theorem tree {span : Span} (sourced : EntriesSourced text entries) :
    Sourced text (.table span (entryTrees entries) none) :=
  sourced_table sourced.keys fun e mem => (sourced.slots e mem).tree

private theorem find {name : String} {slot : Slot} (sourced : EntriesSourced text entries)
    (found : entries.find? name = some slot) : SlotSourced text slot := by
  obtain ⟨e, there, rfl⟩ := Option.map_eq_some_iff.mp found
  exact sourced.slots e (List.mem_of_find?_eq_some there)

private theorem replace {name : String} {slot : Slot} (sourced : EntriesSourced text entries)
    (own : SlotSourced text slot) : EntriesSourced text (entries.replace name slot) := by
  constructor
  · refine List.forall_mem_map.mpr fun e mem => ?_
    split
    · exact sourced.keys e mem
    · exact sourced.keys e mem
  · refine List.forall_mem_map.mpr fun e mem => ?_
    split
    · exact own
    · exact sourced.slots e mem

private theorem add {key : Key} {slot : Slot} (sourced : EntriesSourced text entries)
    (written : KeySourced text key) (own : SlotSourced text slot) :
    EntriesSourced text (entries.add key slot) := by
  constructor
  · exact List.forall_mem_append.mpr ⟨sourced.keys, List.forall_mem_singleton.mpr written⟩
  · exact List.forall_mem_append.mpr ⟨sourced.slots, List.forall_mem_singleton.mpr own⟩

private theorem table {origin : Origin} {span : Span} (sourced : EntriesSourced text entries) :
    SlotSourced text (.table origin span entries) :=
  .table sourced.keys sourced.slots

end EntriesSourced

private theorem SlotSourced.entries {origin : Origin} {span : Span} {entries : Entries}
    (sourced : SlotSourced text (.table origin span entries)) : EntriesSourced text entries := by
  cases sourced with
  | table keys slots => exact ⟨keys, slots⟩

private theorem slotSourced_tables_iff {span : Span} {each : List (Span × Entries)} :
    SlotSourced text (.tables span each) ↔ ∀ t ∈ each, EntriesSourced text t.2 := by
  constructor
  · intro sourced
    cases sourced with
    | tables keys slots => exact fun t mem => ⟨keys t mem, slots t mem⟩
  · intro all
    exact .tables (fun t mem => (all t mem).keys) fun t mem => (all t mem).slots

/-- Changing the table at the end of a path keeps what stands at its places, if the change does. -/
private theorem descend_sourced {byDots : Bool} {change : Origin → Entries → Except Fault Entries}
    (keeps : ∀ origin found out, EntriesSourced text found → change origin found = .ok out →
      EntriesSourced text out)
    {path : List Key} (keys : ∀ key ∈ path, KeySourced text key) {origin : Origin}
    {entries out : Entries} (sourced : EntriesSourced text entries)
    (made : descend byDots change path origin entries = .ok out) : EntriesSourced text out := by
  induction path generalizing origin entries out with
  | nil => exact keeps origin entries out sourced made
  | cons key path ih =>
    obtain ⟨written, later⟩ := List.forall_mem_cons.mp keys
    rw [descend] at made
    split at made
    · obtain ⟨inner, below, made⟩ := bind_eq_ok.mp made
      cases made
      exact sourced.add written (ih later .nil below).table
    · cases made
    · next origin span inner found =>
      split at made
      · cases made
      · obtain ⟨inner', below, made⟩ := bind_eq_ok.mp made
        cases made
        exact sourced.replace (ih later (sourced.find found).entries below).table
    · next span each found =>
      have all := slotSourced_tables_iff.mp (sourced.find found)
      split at made
      · cases made
      · next last inner before reversed =>
        obtain ⟨inner', below, made⟩ := bind_eq_ok.mp made
        cases made
        have members : ∀ t ∈ (last, inner) :: before, EntriesSourced text t.2 :=
          fun t mem => all t (List.mem_reverse.mp (reversed ▸ mem))
        obtain ⟨own, others⟩ := List.forall_mem_cons.mp members
        refine sourced.replace (slotSourced_tables_iff.mpr fun t mem => ?_)
        rcases List.mem_cons.mp (List.mem_reverse.mp mem) with rfl | mem
        · exact ih later own below
        · exact others t mem

theorem addValue_sourced {entries out : Entries} {path : List Key} {key : Key} {slot : Slot}
    (sourced : EntriesSourced text entries) (keys : ∀ key ∈ path, KeySourced text key)
    (written : KeySourced text key) (own : SlotSourced text slot)
    (made : addValue entries path key slot = .ok out) : EntriesSourced text out := by
  refine descend_sourced (fun origin found out start made => ?_) keys sourced made
  split at made
  · cases made
  · split at made
    · cases made
    · cases made
      exact start.add written own

structure HeaderSourced (text : List Char) (h : Header) : Prop where
  path : ∀ key ∈ h.path, KeySourced text key
  key : KeySourced text h.key

structure AssemblySourced (text : List Char) (a : Assembly) : Prop where
  root : EntriesSourced text a.root
  header : ∀ h, a.header = some h → HeaderSourced text h
  current : EntriesSourced text a.current

namespace Assembly

variable {a b : Assembly}

theorem close_sourced (sourced : AssemblySourced text a) {out : Entries}
    (closed : a.close = .ok out) : EntriesSourced text out := by
  unfold close at closed
  split at closed
  · cases closed
    exact sourced.current
  · next h open_ =>
    obtain ⟨path, key⟩ := sourced.header h open_
    refine descend_sourced (fun origin found out start made => ?_) path sourced.root closed
    split at made
    · split at made
      · cases made
        exact start.add key (slotSourced_tables_iff.mpr
          (List.forall_mem_singleton.mpr sourced.current))
      · next span each there =>
        cases made
        have all := slotSourced_tables_iff.mp (start.find there)
        exact start.replace (slotSourced_tables_iff.mpr
          (List.forall_mem_append.mpr ⟨all, List.forall_mem_singleton.mpr sourced.current⟩))
      · cases made
    · split at made
      · cases made
      · cases made
        exact start.add key sourced.current.table

private theorem entriesAt_sourced {path : List Key} {entries : Entries}
    (sourced : EntriesSourced text entries) :
    EntriesSourced text (reopen.entriesAt path entries) := by
  induction path generalizing entries with
  | nil => exact sourced
  | cons key path ih =>
    rw [reopen.entriesAt]
    split
    · next found => exact ih (sourced.find found).entries
    · next span each found =>
      have all := slotSourced_tables_iff.mp (sourced.find found)
      split
      · next last => exact ih (all _ (List.mem_of_getLast? last))
      · exact .nil
    · exact .nil

private theorem reopen_sourced {h : Header} (keys : HeaderSourced text h)
    {root inner rest : Entries} (sourced : EntriesSourced text root)
    (taken : reopen h root = .ok (inner, rest)) :
    EntriesSourced text inner ∧ EntriesSourced text rest := by
  unfold reopen at taken
  extract_lets takeOut at taken
  have parts : ∀ found inner rest, EntriesSourced text found →
      takeOut found = .ok (inner, rest) →
      EntriesSourced text inner ∧ EntriesSourced text rest := by
    intro found inner rest start taken
    dsimp only [takeOut] at taken
    split at taken
    · cases taken
      exact ⟨.nil, start⟩
    · next there =>
      cases taken
      exact ⟨(start.find there).entries,
        fun e mem => start.keys e (List.mem_filter.mp mem).1,
        fun e mem => start.slots e (List.mem_filter.mp mem).1⟩
    · cases taken
  obtain ⟨left, leftMade, taken⟩ := bind_eq_ok.mp taken
  obtain ⟨found, foundMade, taken⟩ := bind_eq_ok.mp taken
  cases taken
  constructor
  · refine entriesAt_sourced (descend_sourced (fun origin found out start made => ?_) keys.path
      sourced foundMade)
    obtain ⟨⟨inner, rest⟩, own, rfl⟩ := map_eq_ok.mp made
    exact (parts found inner rest start own).1
  · refine descend_sourced (fun origin found out start made => ?_) keys.path sourced leftMade
    obtain ⟨⟨inner, rest⟩, own, rfl⟩ := map_eq_ok.mp made
    exact (parts found inner rest start own).2

theorem openHeader_sourced {h : Header} (sourced : AssemblySourced text a)
    (keys : HeaderSourced text h) (opened : a.openHeader h = .ok b) : AssemblySourced text b := by
  have named : ∀ h', some h = some h' → HeaderSourced text h' := by
    rintro _ ⟨⟩
    exact keys
  unfold openHeader at opened
  obtain ⟨root, closed, opened⟩ := bind_eq_ok.mp opened
  have whole := close_sourced sourced closed
  split at opened
  · cases opened
    exact ⟨whole, named, .nil⟩
  · obtain ⟨⟨inner, rest⟩, taken, opened⟩ := bind_eq_ok.mp opened
    cases opened
    obtain ⟨own, left⟩ := reopen_sourced keys whole taken
    exact ⟨left, named, own⟩

theorem addLine_sourced {path : List Key} {key : Key} {slot : Slot}
    (sourced : AssemblySourced text a) (keys : ∀ key ∈ path, KeySourced text key)
    (written : KeySourced text key) (own : SlotSourced text slot)
    (added : a.addLine path key slot = .ok b) : AssemblySourced text b := by
  unfold addLine at added
  obtain ⟨current, made, added⟩ := bind_eq_ok.mp added
  cases added
  exact ⟨sourced.root, sourced.header, addValue_sourced sourced.current keys written own made⟩

end Assembly

end RubyScaffold.Toml
