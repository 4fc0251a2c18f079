/-!
Maps from text that keep the order in which their keys first appeared. Writing to a present key
replaces its value in place; no key appears twice.
-/

set_option autoImplicit false

namespace RubyScaffold

/-- The entries with one written: in its place if the key is there, at the end otherwise. -/
def putEntry {α : Type} (key : String) (value : α) : List (String × α) → List (String × α)
  | [] => [(key, value)]
  | entry :: rest =>
    if entry.1 = key then (key, value) :: rest else entry :: putEntry key value rest

theorem mem_keys_putEntry {α : Type} (key : String) (value : α) (k : String) :
    ∀ entries : List (String × α),
      k ∈ (putEntry key value entries).map Prod.fst ↔ k = key ∨ k ∈ entries.map Prod.fst
  | [] => by simp [putEntry]
  | entry :: rest => by
    unfold putEntry
    split
    · next h => simp [h]
    · next h =>
      have ih := mem_keys_putEntry key value k rest
      simp only [List.map_cons, List.mem_cons, ih]
      exact ⟨fun h => by rcases h with h | h | h <;> simp [h],
        fun h => by rcases h with h | h | h <;> simp [h]⟩

theorem nodup_keys_putEntry {α : Type} (key : String) (value : α) :
    ∀ entries : List (String × α), (entries.map Prod.fst).Nodup →
      ((putEntry key value entries).map Prod.fst).Nodup
  | [], _ => by simp [putEntry]
  | entry :: rest, h => by
    unfold putEntry
    split
    · next he =>
      simp only [List.map_cons] at h ⊢
      rw [← he]; exact h
    · next he =>
      simp only [List.map_cons, List.nodup_cons] at h ⊢
      refine ⟨?_, nodup_keys_putEntry key value rest h.2⟩
      rw [mem_keys_putEntry]
      exact fun hm => hm.elim he h.1

/-- A map that lists its entries in the order of their first writing. -/
structure OrderedMap (α : Type) where
  entries : List (String × α)
  nodup_keys : (entries.map Prod.fst).Nodup

namespace OrderedMap

variable {α β : Type}

def empty : OrderedMap α := ⟨[], List.nodup_nil⟩

instance : Inhabited (OrderedMap α) := ⟨empty⟩

instance [DecidableEq α] : DecidableEq (OrderedMap α) := fun a b =>
  if h : a.entries = b.entries then
    isTrue (by cases a; cases b; cases h; rfl)
  else isFalse fun he => h (congrArg entries he)

def keys (m : OrderedMap α) : List String := m.entries.map Prod.fst

def contains (m : OrderedMap α) (key : String) : Bool := m.keys.contains key

def insert (m : OrderedMap α) (key : String) (value : α) : OrderedMap α :=
  ⟨putEntry key value m.entries, nodup_keys_putEntry key value m.entries m.nodup_keys⟩

def ofList (writings : List (String × α)) : OrderedMap α :=
  writings.foldl (fun m w => m.insert w.1 w.2) empty

def mapValues (f : α → β) (m : OrderedMap α) : OrderedMap β where
  entries := m.entries.map fun e => (e.1, f e.2)
  nodup_keys := by
    have h : (m.entries.map fun e => (e.1, f e.2)).map Prod.fst = m.entries.map Prod.fst := by
      simp [List.map_map, Function.comp_def]
    rw [h]; exact m.nodup_keys

end OrderedMap

end RubyScaffold
