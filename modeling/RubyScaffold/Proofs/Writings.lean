import Mathlib.Data.List.Basic
import Mathlib.Data.List.Induction
import RubyScaffold.Proofs.OrderedMap

/-!
Maps under repeated writing. What some writings come to is said without the map, by the first and
the last writing of every key, and the map that they build lists just that.
-/

set_option autoImplicit false

namespace RubyScaffold

variable {α : Type}

private theorem keys_putEntry_of_mem {key : String} (value : α) {entries : List (String × α)}
    (old : key ∈ entries.map Prod.fst) :
    (putEntry key value entries).map Prod.fst = entries.map Prod.fst := by
  induction entries with
  | nil => cases old
  | cons entry rest ih =>
    rw [putEntry]
    split
    · next same => rw [List.map_cons, List.map_cons, same]
    · next other =>
      rw [List.map_cons, List.mem_cons] at old
      have later := old.resolve_left fun same => other same.symm
      rw [List.map_cons, List.map_cons, ih later]

private theorem mem_putEntry {key : String} {value : α} {e : String × α}
    {entries : List (String × α)} (once : (entries.map Prod.fst).Nodup)
    (mem : e ∈ putEntry key value entries) :
    e = (key, value) ∨ (e.1 ≠ key ∧ e ∈ entries) := by
  induction entries with
  | nil => exact .inl (List.mem_singleton.mp mem)
  | cons entry rest ih =>
    obtain ⟨fresh, distinct⟩ := List.nodup_cons.mp once
    rw [putEntry] at mem
    split at mem
    · next same =>
      rcases List.mem_cons.mp mem with own | later
      · exact .inl own
      · have there : e.1 ∈ rest.map Prod.fst := List.mem_map_of_mem later
        have ne : e.1 ≠ key := fun again => fresh (same.trans again.symm ▸ there)
        exact .inr ⟨ne, List.mem_cons_of_mem _ later⟩
    · next other =>
      rcases List.mem_cons.mp mem with rfl | later
      · exact .inr ⟨other, List.mem_cons_self⟩
      · rcases ih distinct later with own | ⟨ne, there⟩
        · exact .inl own
        · exact .inr ⟨ne, List.mem_cons_of_mem _ there⟩

/-- What some writings come to: every key that was written stands there once, the keys in the order
of their first writings, and each with the value that was written to it last. -/
structure Settles (writings entries : List (String × α)) : Prop where
  once : (entries.map Prod.fst).Nodup
  keys : ∀ key, key ∈ entries.map Prod.fst ↔ key ∈ writings.map Prod.fst
  order : (entries.map Prod.fst).Pairwise fun a b =>
    (writings.map Prod.fst).idxOf a < (writings.map Prod.fst).idxOf b
  last : ∀ entry ∈ entries, writings.reverse.lookup entry.1 = some entry.2

namespace Settles

variable {writings entries others : List (String × α)}

private theorem nil : Settles ([] : List (String × α)) [] :=
  ⟨.nil, fun _ => .rfl, .nil, fun _ mem => by cases mem⟩

private theorem put (settled : Settles writings entries) (key : String) (value : α) :
    Settles (writings ++ [(key, value)]) (putEntry key value entries) where
  once := nodup_keys_putEntry key value entries settled.once
  keys k := by
    rw [mem_keys_putEntry, settled.keys, List.map_append, List.mem_append, or_comm]
    simp
  order := by
    -- the place of a key in the writings stays what it was, and a new key comes behind them all
    have stays : ∀ k ∈ entries.map Prod.fst,
        ((writings ++ [(key, value)]).map Prod.fst).idxOf k =
          (writings.map Prod.fst).idxOf k := by
      intro k mem
      rw [List.map_append, List.idxOf_append_of_mem ((settled.keys k).mp mem)]
    have before : (entries.map Prod.fst).Pairwise fun a b =>
        ((writings ++ [(key, value)]).map Prod.fst).idxOf a <
          ((writings ++ [(key, value)]).map Prod.fst).idxOf b :=
      settled.order.imp_of_mem fun memA memB below => by rwa [stays _ memA, stays _ memB]
    by_cases old : key ∈ entries.map Prod.fst
    · rw [keys_putEntry_of_mem value old]
      exact before
    · have listed : (putEntry key value entries).map Prod.fst = entries.map Prod.fst ++ [key] := by
        simp [putEntry_of_fresh value old]
      have fresh : key ∉ writings.map Prod.fst :=
        fun written => old ((settled.keys key).mpr written)
      rw [listed]
      refine List.pairwise_append.mpr ⟨before, List.pairwise_singleton _ _, ?_⟩
      intro a memA b memB
      obtain rfl := List.mem_singleton.mp memB
      rw [stays a memA, List.map_append, List.idxOf_append_of_notMem fresh]
      exact Nat.lt_add_right _ (List.idxOf_lt_length_iff.mpr ((settled.keys a).mp memA))
  last entry mem := by
    rw [List.reverse_append, List.reverse_singleton, List.singleton_append, List.lookup_cons]
    rcases mem_putEntry settled.once mem with rfl | ⟨other, there⟩
    · simp
    · have skip : (entry.1 == key) = false := by simpa using other
      rw [skip]
      exact settled.last entry there

theorem unique (settled : Settles writings entries) (settled' : Settles writings others) :
    entries = others := by
  have members : ∀ key, key ∈ entries.map Prod.fst ↔ key ∈ others.map Prod.fst :=
    fun key => (settled.keys key).trans (settled'.keys key).symm
  have perm := (List.perm_ext_iff_of_nodup settled.once settled'.once).mpr members
  have keys : entries.map Prod.fst = others.map Prod.fst :=
    perm.eq_of_pairwise (fun _ _ _ _ below above => absurd above (Nat.lt_asymm below)) settled.order
      settled'.order
  -- the values are those that were written last to the keys
  have valued : ∀ found, Settles writings found →
      found.map (fun entry => (entry.1, some entry.2)) =
        (found.map Prod.fst).map fun key => (key, writings.reverse.lookup key) := by
    intro found own
    rw [List.map_map]
    exact List.map_congr_left fun entry mem => by simp [own.last entry mem]
  have same := (valued entries settled).trans (keys ▸ (valued others settled').symm)
  refine List.map_injective_iff.mpr ?_ same
  rintro ⟨a, v⟩ ⟨b, w⟩ both
  simpa using both

end Settles

namespace OrderedMap

/-- The map that some writings build is what they come to. -/
theorem settles_ofList (writings : List (String × α)) :
    Settles writings (ofList writings).entries := by
  induction writings using List.reverseRecOn with
  | nil => exact .nil
  | append_singleton writings w ih =>
    rw [ofList, List.foldl_append]
    exact ih.put w.1 w.2

theorem settles_iff {writings : List (String × α)} {m : OrderedMap α} :
    Settles writings m.entries ↔ ofList writings = m := by
  constructor
  · intro settled
    exact eq_of_entries ((settles_ofList writings).unique settled)
  · rintro rfl
    exact settles_ofList writings

end OrderedMap

end RubyScaffold
