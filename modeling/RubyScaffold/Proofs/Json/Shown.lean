import RubyScaffold.Manifest.Decode
import RubyScaffold.Proofs.Json.Reading

/-!
Trees that show a value as far as a reader was asked for it: what was asked for stands there, and
everything else is passed over.
-/

set_option autoImplicit false

namespace RubyScaffold

/-- What a tree is where something was asked for, or that nothing was and the value is passed
over. -/
def Interest.Shows {π φ : Type} (asked : Interest) (t : Tree π φ) (whole : Prop) : Prop :=
  match asked with
  | .nothing => ∃ p, t = .skipped p
  | _ => whole

private theorem Interest.Shows.skipped_or {π φ : Type} {asked : Interest} {t : Tree π φ}
    {whole : Prop} (shows : asked.Shows t whole) : (∃ p, t = .skipped p) ∨ whole := by
  cases asked with
  | nothing => exact .inl shows
  | everything => exact .inr shows
  | parts _ _ => exact .inr shows

theorem Interest.shows_iff {π φ : Type} {asked : Interest} (wanted : asked ≠ .nothing)
    (t : Tree π φ) (whole : Prop) : asked.Shows t whole ↔ whole := by
  cases asked with
  | nothing => exact absurd rfl wanted
  | everything => rfl
  | parts _ _ => rfl

namespace Json

mutual

/-- Whether a tree shows a value as far as a reader was asked for it. -/
def Value.ShownBy {π φ : Type} : Value → Interest → Tree π φ → Prop
  | .null, asked, t => asked.Shows t (∃ p, t = .null p)
  | .bool b, asked, t => asked.Shows t (∃ p, t = .bool p b)
  | .integer i, asked, t => asked.Shows t (∃ p, t = .integer p i)
  | .float x, asked, t => asked.Shows t (∃ p, t = .float p x)
  | .text s, asked, t => asked.Shows t (∃ p, t = .text p s)
  | .list items, asked, t =>
    asked.Shows t (∃ p found, t = .list p found none ∧ ItemsShownBy items asked 0 found)
  | .table members, asked, t =>
    asked.Shows t (∃ p found, t = .table p found none ∧ MembersShownBy members asked found)

def ItemsShownBy {π φ : Type} : List Value → Interest → Nat → List (Tree π φ) → Prop
  | [], _, _, found => found = []
  | v :: rest, asked, n, found =>
    ∃ t others, found = t :: others ∧ v.ShownBy (asked.item n) t ∧
      ItemsShownBy rest asked (n + 1) others

def MembersShownBy {π φ : Type} :
    List (String × Value) → Interest → List (String × π × Tree π φ) → Prop
  | [], _, found => found = []
  | (key, v) :: rest, asked, found =>
    ∃ p t others, found = (key, p, t) :: others ∧ v.ShownBy (asked.member key) t ∧
      MembersShownBy rest asked others

end

variable {π φ : Type}

mutual

theorem shownBy_everything (v : Value) (t : Tree π φ) : v.ShownBy .everything t ↔ v.HeldBy t := by
  cases v with
  | null | bool | integer | float | text => rfl
  | list items =>
    simp only [Value.ShownBy, Value.HeldBy, Interest.Shows, itemsShownBy_everything items]
  | table members =>
    simp only [Value.ShownBy, Value.HeldBy, Interest.Shows, membersShownBy_everything members]

theorem itemsShownBy_everything (items : List Value) (n : Nat) (found : List (Tree π φ)) :
    ItemsShownBy items .everything n found ↔ ItemsHeldBy items found := by
  cases items with
  | nil => rfl
  | cons v rest =>
    simp only [ItemsShownBy, ItemsHeldBy, Interest.item, shownBy_everything v,
      itemsShownBy_everything rest]

theorem membersShownBy_everything (members : List (String × Value))
    (found : List (String × π × Tree π φ)) :
    MembersShownBy members .everything found ↔ MembersHeldBy members found := by
  cases members with
  | nil => rfl
  | cons m rest =>
    simp only [MembersShownBy, MembersHeldBy, Interest.member, shownBy_everything m.2,
      membersShownBy_everything rest]

end

mutual

/-- Whether a tree shows a value, computed. -/
def Value.shows? : Value → Interest → Tree π φ → Bool
  | _, .nothing, .skipped _ => true
  | _, .nothing, _ => false
  | .null, _, .null _ => true
  | .bool b, _, .bool _ c => c = b
  | .integer i, _, .integer _ j => j = i
  | .float x, _, .float _ y => y = x
  | .text s, _, .text _ r => r = s
  | .list items, asked, .list _ found none => itemsShow? items asked 0 found
  | .table ms, asked, .table _ found none => membersShow? ms asked found
  | _, _, _ => false

def itemsShow? : List Value → Interest → Nat → List (Tree π φ) → Bool
  | [], _, _, [] => true
  | v :: rest, asked, n, t :: others =>
    v.shows? (asked.item n) t && itemsShow? rest asked (n + 1) others
  | _, _, _, _ => false

def membersShow? : List (String × Value) → Interest → List (String × π × Tree π φ) → Bool
  | [], _, [] => true
  | (key, v) :: rest, asked, (k, _, t) :: others =>
    decide (k = key) && v.shows? (asked.member key) t && membersShow? rest asked others
  | _, _, _ => false

end

mutual

private theorem shows?_iff (v : Value) (asked : Interest) (t : Tree π φ) :
    v.shows? asked t = true ↔ v.ShownBy asked t := by
  cases asked with
  | nothing => cases v <;> cases t <;> simp [Value.shows?, Value.ShownBy, Interest.Shows]
  | everything | parts =>
    cases v with
    | list items =>
      rcases t with _ | _ | _ | _ | _ | ⟨p, found, _ | _⟩ | _ | _ | _ <;>
        simp [Value.shows?, Value.ShownBy, Interest.Shows, itemsShow?_iff items, and_assoc]
    | table members =>
      rcases t with _ | _ | _ | _ | _ | _ | ⟨p, found, _ | _⟩ | _ | _ <;>
        simp [Value.shows?, Value.ShownBy, Interest.Shows, membersShow?_iff members, and_assoc]
    | null | bool | integer | float | text =>
      cases t <;> simp [Value.shows?, Value.ShownBy, Interest.Shows]

theorem itemsShow?_iff (items : List Value) (asked : Interest) (n : Nat)
    (found : List (Tree π φ)) :
    itemsShow? items asked n found = true ↔ ItemsShownBy items asked n found := by
  cases items with
  | nil => cases found <;> simp [itemsShow?, ItemsShownBy]
  | cons v rest =>
    cases found <;> simp [itemsShow?, ItemsShownBy, shows?_iff v, itemsShow?_iff rest, and_assoc]

theorem membersShow?_iff (members : List (String × Value)) (asked : Interest)
    (found : List (String × π × Tree π φ)) :
    membersShow? members asked found = true ↔ MembersShownBy members asked found := by
  cases members with
  | nil => cases found <;> simp [membersShow?, MembersShownBy]
  | cons m rest =>
    obtain ⟨key, v⟩ := m
    cases found with
    | nil => simp [membersShow?, MembersShownBy]
    | cons entry others =>
      obtain ⟨k, p, t⟩ := entry
      simp [membersShow?, MembersShownBy, shows?_iff v, membersShow?_iff rest, and_assoc]

end

instance (v : Value) (asked : Interest) (t : Tree π φ) : Decidable (v.ShownBy asked t) :=
  decidable_of_iff _ (shows?_iff v asked t)

instance (v : Value) (t : Tree π φ) : Decidable (v.HeldBy t) :=
  decidable_of_iff _ (shownBy_everything v t)

theorem MembersShownBy.exists_tree {members : List (String × Value)} {asked : Interest}
    {found : List (String × π × Tree π φ)} (shown : MembersShownBy members asked found)
    {key : String} {v : Value} (mem : (key, v) ∈ members) :
    ∃ p t, (key, p, t) ∈ found ∧ v.ShownBy (asked.member key) t := by
  induction members generalizing found with
  | nil => cases mem
  | cons m rest ih =>
    obtain ⟨p, t, others, rfl, first, later⟩ := shown
    rcases List.mem_cons.mp mem with rfl | inside
    · exact ⟨p, t, List.mem_cons_self, first⟩
    · obtain ⟨q, u, there, own⟩ := ih later inside
      exact ⟨q, u, List.mem_cons_of_mem _ there, own⟩

open Decode (unreadable? unreadableItem? unreadableMember?)

mutual

theorem unreadable?_of_shownBy (v : Value) {asked : Interest} {t : Tree π φ}
    (shown : v.ShownBy asked t) : unreadable? (fun _ => true) t = none := by
  cases v with
  | null | bool | integer | float | text =>
    rcases Interest.Shows.skipped_or shown with ⟨p, rfl⟩ | ⟨p, rfl⟩ <;> rfl
  | list items =>
    rcases Interest.Shows.skipped_or shown with ⟨p, rfl⟩ | ⟨p, found, rfl, inside⟩
    · rfl
    · rw [unreadable?, unreadableItem?_of_shownBy items inside]
      rfl
  | table members =>
    rcases Interest.Shows.skipped_or shown with ⟨p, rfl⟩ | ⟨p, found, rfl, inside⟩
    · rfl
    · rw [unreadable?, unreadableMember?_of_shownBy members inside]
      rfl

theorem unreadableItem?_of_shownBy (items : List Value) {asked : Interest} {n : Nat}
    {found : List (Tree π φ)} (shown : ItemsShownBy items asked n found) :
    unreadableItem? (fun _ => true) found = none := by
  cases items with
  | nil =>
    obtain rfl : found = [] := shown
    rfl
  | cons v rest =>
    obtain ⟨t, others, rfl, first, later⟩ := shown
    rw [unreadableItem?, unreadable?_of_shownBy v first, unreadableItem?_of_shownBy rest later]
    rfl

theorem unreadableMember?_of_shownBy (members : List (String × Value)) {asked : Interest}
    {found : List (String × π × Tree π φ)} (shown : MembersShownBy members asked found) :
    unreadableMember? (fun _ => true) found = none := by
  cases members with
  | nil =>
    obtain rfl : found = [] := shown
    rfl
  | cons m rest =>
    obtain ⟨p, t, others, rfl, first, later⟩ := shown
    rw [unreadableMember?, unreadable?_of_shownBy m.2 first,
      unreadableMember?_of_shownBy rest later]
    rfl

end

end Json

end RubyScaffold
