import RubyScaffold.Proofs.Manifest.Fields

/-!
What a record makes of a table: every key is known or passed over, none that is known comes twice,
what is required is there and every value fits; then each field has what its member says.
-/

set_option autoImplicit false

namespace RubyScaffold

open Json (Value MembersShownBy)
open Schema (keys)

/-- A record made by one step for each member is what the members say together, if that grows by
one member as the step says and no key comes twice. -/
theorem Schema.foldl_eq {α : Type} {step : α → String → Value → α}
    {total : α → List (String × Value) → α} {fields : List String} (nil : ∀ a, total a [] = a)
    (cons : ∀ a key v rest, key ∈ fields → rest.lookup key = none →
      total (step a key v) rest = total a ((key, v) :: rest))
    {ms : List (String × Value)} (known : ∀ m ∈ ms, m.1 ∈ fields) (once : (keys ms).Nodup) (a : α) :
    ms.foldl (fun a m => step a m.1 m.2) a = total a ms := by
  induction ms generalizing a with
  | nil => exact (nil a).symm
  | cons m rest ih =>
    obtain ⟨key, v⟩ := m
    obtain ⟨fresh, once⟩ := List.nodup_cons.mp once
    obtain ⟨isField, known⟩ := List.forall_mem_cons.mp known
    have absent : rest.lookup key = none := by
      rw [List.lookup_eq_none_iff]
      intro m mem
      have listed : m.1 ∈ keys rest := List.mem_map_of_mem mem
      have ne : key ≠ m.1 := fun same => fresh (same ▸ listed)
      simpa using ne
    rw [List.foldl_cons, ih known once, cons a key v rest isField absent]

namespace Decode.Record

variable {π φ α : Type}

def known (r : Record π φ α) (ms : List (String × Value)) : List (String × Value) :=
  ms.filter fun m => r.fields.contains m.1

/-- Whether a record takes for its fields exactly the values that fit, and goes on by a step for
each of them. -/
def Puts (r : Record π φ α) (asked : Interest) (fit : String → Value → Prop)
    (step : α → String → Value → α) (ms : List (String × Value)) : Prop :=
  ∀ m ∈ ms, m.1 ∈ r.fields → ∀ t : Tree π φ, m.2.ShownBy (asked.member m.1) t →
    ∀ a b, r.put a m.1 t = .ok b ↔ fit m.1 m.2 ∧ step a m.1 m.2 = b

variable {r : Record π φ α} {asked : Interest} {ms : List (String × Value)}
  {found : List (String × π × Tree π φ)} (fit : String → Value → Prop)
  (step : α → String → Value → α)

theorem mem_known {m : String × Value} : m ∈ r.known ms ↔ m ∈ ms ∧ m.1 ∈ r.fields := by
  simp [known]

theorem nodup_known_iff :
    (keys (r.known ms)).Nodup ↔ ∀ key ∈ r.fields, (keys ms).count key ≤ 1 := by
  have filtered : keys (r.known ms) = (keys ms).filter r.fields.contains := by
    rw [keys, keys, List.filter_map]
    rfl
  rw [filtered, List.nodup_iff_count]
  constructor
  · intro once key isField
    rw [← List.count_filter (List.contains_iff_mem.mpr isField)]
    exact once key
  · intro once key
    by_cases isField : key ∈ r.fields
    · rw [List.count_filter (List.contains_iff_mem.mpr isField)]
      exact once key isField
    · have absent : key ∉ (keys ms).filter r.fields.contains := by
        simp [isField]
      rw [List.count_eq_zero.mpr absent]
      exact Nat.zero_le 1

theorem lookup_known {key : String} (isField : key ∈ r.fields)
    (ms : List (String × Value)) : (r.known ms).lookup key = ms.lookup key := by
  induction ms with
  | nil => rfl
  | cons m rest ih =>
    obtain ⟨k, v⟩ := m
    rw [known] at ih ⊢
    by_cases same : key = k
    · subst same
      simp [isField]
    · have skip : (key == k) = false := by simpa using same
      rw [List.filter_cons, List.lookup_cons, skip]
      split
      · rw [List.lookup_cons, skip]
        exact ih
      · exact ih

private theorem members_eq_ok_iff (shown : MembersShownBy ms asked found)
    (puts : r.Puts asked fit step ms)
    (seen seen' : List String) (a b : α) :
    r.members seen a found = .ok (b, seen') ↔
      (∀ m ∈ ms, m.1 ∈ r.fields ∨ r.lenient = true) ∧ (keys (r.known ms)).Nodup ∧
        (∀ key ∈ keys (r.known ms), key ∉ seen) ∧ (∀ m ∈ r.known ms, fit m.1 m.2) ∧
        (r.known ms).foldl (fun a m => step a m.1 m.2) a = b ∧
        (keys (r.known ms)).reverse ++ seen = seen' := by
  induction ms generalizing found seen a with
  | nil =>
    obtain rfl : found = [] := shown
    simp [members, known, keys]
  | cons m rest ih =>
    obtain ⟨key, v⟩ := m
    obtain ⟨p, t, others, rfl, first, later⟩ := shown
    have behind := ih later fun m mem => puts m (List.mem_cons_of_mem _ mem)
    have own := puts (key, v) List.mem_cons_self
    rw [members]
    by_cases isField : key ∈ r.fields
    · have split : r.known ((key, v) :: rest) = (key, v) :: r.known rest := by
        simp [known, isField]
      have contains : r.fields.contains key = true := by simpa using isField
      rw [split, contains]
      by_cases old : key ∈ seen
      · simp [keys, old]
      · have fresh : seen.contains key = false := by simpa using old
        simp only [fresh, Bool.not_true, Bool.false_eq_true, if_false, bind_eq_ok,
          own isField t first, behind]
        have listed : keys ((key, v) :: r.known rest) = key :: keys (r.known rest) := rfl
        rw [listed, List.nodup_cons, List.reverse_cons, List.append_assoc]
        simp only [List.forall_mem_cons, List.foldl_cons]
        -- the rest must not come back to what was seen: that is, to this key or to those before it
        constructor
        · rintro ⟨c, ⟨fits, rfl⟩, knownRest, once, new, all, made, order⟩
          have once' : key ∉ keys (r.known rest) := fun again => new key again List.mem_cons_self
          have new' : ∀ k ∈ keys (r.known rest), k ∉ seen :=
            fun k mem before => new k mem (List.mem_cons_of_mem _ before)
          exact ⟨⟨.inl isField, knownRest⟩, ⟨once', once⟩, ⟨old, new'⟩, ⟨fits, all⟩, made, order⟩
        · rintro ⟨⟨-, knownRest⟩, ⟨once', once⟩, ⟨-, new'⟩, ⟨fits, all⟩, made, order⟩
          have new : ∀ k ∈ keys (r.known rest), k ∉ key :: seen := by
            intro k mem before
            rcases List.mem_cons.mp before with rfl | before
            · exact once' mem
            · exact new' k mem before
          exact ⟨_, ⟨fits, rfl⟩, knownRest, once, new, all, made, order⟩
    · have split : r.known ((key, v) :: rest) = r.known rest := by
        simp [known, isField]
      have contains : r.fields.contains key = false := by simpa using isField
      have passed : ignored t = .ok () := by
        rw [ignored, Json.unreadable?_of_shownBy v first]
      rw [split, contains]
      cases lenient : r.lenient with
      | true => simp [behind, passed, bind, Except.bind, lenient]
      | false => simp [isField]

/-- A table gives a record if its keys are known, or passed over, and those that are known come
once and have values that fit, and if what is required is there. -/
theorem decode_table_eq_ok_iff (shown : MembersShownBy ms asked found)
    (puts : r.Puts asked fit step ms)
    (surplus : List (Tree π φ) → Option φ → Option φ) (start b : α) (p : π) :
    r.decode surplus start (.table p found none) = .ok b ↔
      (∀ m ∈ ms, m.1 ∈ r.fields ∨ r.lenient = true) ∧ (keys (r.known ms)).Nodup ∧
        (∀ key ∈ r.required, key ∈ keys (r.known ms)) ∧ (∀ m ∈ r.known ms, fit m.1 m.2) ∧
        (r.known ms).foldl (fun a m => step a m.1 m.2) start = b := by
  have read := members_eq_ok_iff fit step shown puts []
  rw [decode, bind_eq_ok]
  constructor
  · rintro ⟨⟨a, seen⟩, found, rest⟩
    obtain ⟨known, once, -, fits, rfl, rfl⟩ := (read seen start a).mp found
    cases required : r.required with
    | none =>
      simp only [required, ended] at rest
      exact ⟨known, once, by simp, fits, Except.ok.inj rest⟩
    | some key =>
      by_cases there : key ∈ keys (r.known ms)
      · refine ⟨known, once, by simpa using there, fits, ?_⟩
        simpa [required, ended, there, bind, Except.bind] using rest
      · simp [required, ended, there, bind, Except.bind] at rest
  · rintro ⟨known, once, required, fits, made⟩
    refine ⟨(b, (keys (r.known ms)).reverse), (read _ start b).mpr ?_, ?_⟩
    · exact ⟨known, once, by simp, fits, made, by simp⟩
    · cases needed : r.required with
      | none => rfl
      | some key =>
        have there : key ∈ keys (r.known ms) := required key needed
        simp [ended, there, bind, Except.bind]

theorem decode_strict_eq_ok_iff (strict : r.lenient = false) (shown : MembersShownBy ms asked found)
    (puts : r.Puts asked fit step ms)
    (surplus : List (Tree π φ) → Option φ → Option φ) (start b : α) (p : π) :
    r.decode surplus start (.table p found none) = .ok b ↔
      (∀ m ∈ ms, m.1 ∈ r.fields) ∧ (keys ms).Nodup ∧ (∀ key ∈ r.required, key ∈ keys ms) ∧
        (∀ m ∈ ms, fit m.1 m.2) ∧ ms.foldl (fun a m => step a m.1 m.2) start = b := by
  rw [decode_table_eq_ok_iff fit step shown puts]
  simp only [strict, Bool.false_eq_true, or_false]
  refine and_congr_right fun all => ?_
  have whole : r.known ms = ms :=
    List.filter_eq_self.mpr fun m mem => List.contains_iff_mem.mpr (all m mem)
  rw [whole]

end Decode.Record

end RubyScaffold
