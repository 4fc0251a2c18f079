import RubyScaffold.OrderedMap

/-!
Maps rebuilt from their writings: entries with new keys are put at the end one after the other, so
that a map is what its own entries write.
-/

set_option autoImplicit false

namespace RubyScaffold

variable {α : Type}

theorem putEntry_of_fresh {key : String} (value : α) {entries : List (String × α)}
    (fresh : key ∉ entries.map Prod.fst) :
    putEntry key value entries = entries ++ [(key, value)] := by
  induction entries with
  | nil => rfl
  | cons entry rest ih =>
    simp only [List.map_cons, List.mem_cons, not_or] at fresh
    have other : entry.1 ≠ key := fun same => fresh.1 same.symm
    rw [putEntry, if_neg other, ih fresh.2, List.cons_append]

namespace OrderedMap

theorem eq_of_entries {m n : OrderedMap α} (same : m.entries = n.entries) : m = n := by
  cases m
  cases n
  cases same
  rfl

theorem entries_insert_of_fresh {m : OrderedMap α} {entry : String × α}
    {entries : List (String × α)} (fresh : ((m.entries ++ entry :: entries).map Prod.fst).Nodup) :
    (m.insert entry.1 entry.2).entries = m.entries ++ [entry] := by
  have new : entry.1 ∉ m.entries.map Prod.fst := by
    intro old
    rw [List.map_append, List.map_cons, List.nodup_append] at fresh
    exact fresh.2.2 entry.1 old entry.1 List.mem_cons_self rfl
  exact putEntry_of_fresh entry.2 new

theorem entries_foldl_insert {m : OrderedMap α} {entries : List (String × α)}
    (fresh : ((m.entries ++ entries).map Prod.fst).Nodup) :
    (entries.foldl (fun m w => m.insert w.1 w.2) m).entries = m.entries ++ entries := by
  induction entries generalizing m with
  | nil => exact (List.append_nil _).symm
  | cons entry entries ih =>
    have written := entries_insert_of_fresh fresh
    have rest : (((m.insert entry.1 entry.2).entries ++ entries).map Prod.fst).Nodup := by
      rw [written, List.append_assoc]
      exact fresh
    rw [List.foldl_cons, ih rest, written, List.append_assoc]
    rfl

theorem ofList_entries (m : OrderedMap α) : ofList m.entries = m :=
  eq_of_entries (entries_foldl_insert (m := empty) m.nodup_keys)

theorem lookup_eq_some_iff {m : OrderedMap α} {key : String} {value : α} :
    m.entries.lookup key = some value ↔ (key, value) ∈ m.entries := by
  rw [List.lookup_eq_some_iff]
  constructor
  · rintro ⟨before, after, split, -⟩
    simp [split]
  · intro mem
    obtain ⟨before, after, split⟩ := List.append_of_mem mem
    refine ⟨before, after, split, fun entry earlier => bne_iff_ne.mpr fun same => ?_⟩
    have distinct := m.nodup_keys
    rw [split, List.map_append, List.map_cons, List.nodup_append] at distinct
    exact distinct.2.2 entry.1 (List.mem_map_of_mem earlier) key List.mem_cons_self same.symm

end OrderedMap

end RubyScaffold
