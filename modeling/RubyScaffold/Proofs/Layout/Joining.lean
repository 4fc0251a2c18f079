import RubyScaffold.Layout.Fragment
import RubyScaffold.Proofs.Layout.Spacing

/-!
Sections joined with an empty line between neighbours. Joining one section more is associative and
an empty section changes nothing, so sections can be joined in groups, and what is between the empty
lines of the joined sections is what is between those of each section, one after the other.
-/

set_option autoImplicit false

namespace RubyScaffold.Layout

def joined (out part : List Fragment) : List Fragment :=
  if part.isEmpty then out
  else if out.isEmpty then part
  else out ++ .blank :: part

/-- The parts of fragments between their empty lines. A part is empty where nothing stands between
two empty lines, before the first or behind the last; no fragments have no parts. -/
def parts (fragments : List Fragment) : List (List Fragment) :=
  if fragments.isEmpty then [] else fragments.splitOnP Fragment.isBlank

private theorem separated_eq_foldl (sections : List (List Fragment)) :
    separated sections = sections.foldl joined [] :=
  rfl

private theorem Fragment.isBlank_iff (f : Fragment) : f.isBlank = true ↔ f = .blank := by
  cases f <;> simp [Fragment.isBlank]

section Joined

variable {x y : List Fragment}

@[simp] theorem joined_nil (out : List Fragment) : joined out [] = out :=
  rfl

@[simp] theorem nil_joined (part : List Fragment) : joined [] part = part := by
  cases part <;> rfl

private theorem joined_of_ne_nil (someX : x ≠ []) (someY : y ≠ []) :
    joined x y = x ++ .blank :: y := by
  simp [joined, someX, someY]

private theorem joined_assoc (x y z : List Fragment) :
    joined (joined x y) z = joined x (joined y z) := by
  cases x <;> cases y <;> cases z <;> simp [joined]

instance : Std.Associative joined :=
  ⟨joined_assoc⟩

private theorem parts_joined (x y : List Fragment) : parts (joined x y) = parts x ++ parts y := by
  by_cases noX : x = []
  · simp [noX, parts]
  · by_cases noY : y = []
    · simp [noY, parts]
    · have cut : (x ++ .blank :: y).splitOnP Fragment.isBlank =
          x.splitOnP Fragment.isBlank ++ y.splitOnP Fragment.isBlank :=
        List.splitOnP_append_cons x y rfl
      rw [joined_of_ne_nil noX noY]
      simp [parts, noX, noY, cut]

private theorem spaced_joined_iff (x y : List Fragment) :
    Spaced .blank (joined x y) ↔ Spaced .blank x ∧ Spaced .blank y := by
  by_cases noX : x = []
  · simp [noX, Spaced.nil]
  · by_cases noY : y = []
    · simp [noY, Spaced.nil]
    · rw [joined_of_ne_nil noX noY, Spaced.join_iff noX noY]

end Joined

section Separated

variable {sections : List (List Fragment)}

private theorem separated_cons (part : List Fragment) (sections : List (List Fragment)) :
    separated (part :: sections) = joined part (separated sections) := by
  calc separated (part :: sections)
      = sections.foldl joined (joined part []) := by
        rw [separated_eq_foldl, List.foldl_cons, nil_joined, joined_nil]
    _ = joined part (separated sections) := List.foldl_assoc

private theorem separated_append (front back : List (List Fragment)) :
    separated (front ++ back) = joined (separated front) (separated back) := by
  induction front with
  | nil => exact (nil_joined _).symm
  | cons part front ih => rw [List.cons_append, separated_cons, ih, separated_cons, joined_assoc]

theorem separated_singleton (part : List Fragment) : separated [part] = part :=
  nil_joined part

theorem separated_flatten (groups : List (List (List Fragment))) :
    separated groups.flatten = separated (groups.map separated) := by
  induction groups with
  | nil => rfl
  | cons group groups ih =>
    rw [List.flatten_cons, separated_append, ih, List.map_cons, separated_cons]

/-- Joining sections puts an empty line between those that are not empty. -/
theorem separated_eq_intercalate (sections : List (List Fragment)) :
    separated sections = [.blank].intercalate (sections.filter fun part => !part.isEmpty) := by
  induction sections with
  | nil => rfl
  | cons part sections ih =>
    rw [separated_cons, ih]
    cases part with
    | nil => exact nil_joined _
    | cons f fs =>
      have kept : ((f :: fs) :: sections).filter (fun part => !part.isEmpty) =
          (f :: fs) :: sections.filter fun part => !part.isEmpty := rfl
      rw [kept]
      cases others : sections.filter fun part => !part.isEmpty with
      | nil => simp
      | cons next rest =>
        have full : next ≠ [] := by
          have mem : next ∈ sections.filter fun part => !part.isEmpty := by simp [others]
          simpa using (List.mem_filter.mp mem).2
        have more : [.blank].intercalate (next :: rest) ≠ [] := by
          cases rest <;> simp [full]
        rw [joined_of_ne_nil (List.cons_ne_nil f fs) more, List.intercalate_cons_cons,
          List.append_assoc]
        rfl

private theorem parts_separated (sections : List (List Fragment)) :
    parts (separated sections) = sections.flatMap parts := by
  induction sections with
  | nil => rfl
  | cons part sections ih => rw [separated_cons, parts_joined, ih, List.flatMap_cons]

private theorem parts_of_free {part : List Fragment} (free : .blank ∉ part) (some : part ≠ []) :
    parts part = [part] := by
  have plain : ∀ f ∈ part, f.isBlank = false := by
    intro f mem
    rw [← Bool.not_eq_true, Fragment.isBlank_iff]
    rintro rfl
    exact free mem
  simp [parts, some, List.splitOnP_eq_singleton plain]

theorem parts_separated_of_free (free : ∀ part ∈ sections, .blank ∉ part) :
    parts (separated sections) = sections.filter fun part => !part.isEmpty := by
  rw [parts_separated]
  induction sections with
  | nil => rfl
  | cons part sections ih =>
    have rest := ih fun other mem => free other (List.mem_cons_of_mem _ mem)
    rw [List.flatMap_cons, rest]
    cases part with
    | nil => rfl
    | cons f fs =>
      rw [parts_of_free (free _ List.mem_cons_self) (List.cons_ne_nil f fs)]
      rfl

theorem spaced_separated_iff (sections : List (List Fragment)) :
    Spaced .blank (separated sections) ↔ ∀ part ∈ sections, Spaced .blank part := by
  induction sections with
  | nil => simp [separated, Spaced.nil]
  | cons part sections ih => rw [separated_cons, spaced_joined_iff, ih, List.forall_mem_cons]

end Separated

end RubyScaffold.Layout
