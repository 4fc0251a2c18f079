import Mathlib.Data.List.Basic

/-!
Cutting text where one character follows another. Parts that the first of the two is not in can be
taken apart again after they were joined by the pair.
-/

set_option autoImplicit false

namespace RubyScaffold.Text

variable {a b : Char}

/-- The pieces between the places where one given character follows another; there is always at
least one. -/
def pairPieces (a b : Char) : List Char → List (List Char)
  | [] => [[]]
  | [c] => [[c]]
  | c :: d :: rest =>
    if c = a ∧ d = b then [] :: pairPieces a b rest
    else match pairPieces a b (d :: rest) with
      | [] => [[c]]
      | p :: ps => (c :: p) :: ps

theorem pairPieces_cons {c : Char} {rest : List Char}
    (single : ∀ behind, c = a → rest ≠ b :: behind) :
    pairPieces a b (c :: rest) = match pairPieces a b rest with
      | [] => [[c]]
      | p :: ps => (c :: p) :: ps := by
  cases rest with
  | nil => rfl
  | cons d rest =>
    have apart : ¬ (c = a ∧ d = b) := fun pair => single rest pair.1 (by rw [pair.2])
    rw [pairPieces, if_neg apart]

private theorem pairPieces_cons_of_ne {c : Char} (other : c ≠ a) (rest : List Char) :
    pairPieces a b (c :: rest) = match pairPieces a b rest with
      | [] => [[c]]
      | p :: ps => (c :: p) :: ps :=
  pairPieces_cons fun _ same => absurd same other

private theorem pairPieces_of_free {cs : List Char} (free : a ∉ cs) : pairPieces a b cs = [cs] := by
  induction cs with
  | nil => rfl
  | cons c rest ih =>
    have other : c ≠ a := fun same => free (same ▸ List.mem_cons_self)
    rw [pairPieces_cons_of_ne other, ih fun mem => free (List.mem_cons_of_mem _ mem)]

private theorem pairPieces_append {cs : List Char} (free : a ∉ cs) (rest : List Char) :
    pairPieces a b (cs ++ a :: b :: rest) = cs :: pairPieces a b rest := by
  induction cs with
  | nil => rw [List.nil_append, pairPieces, if_pos ⟨rfl, rfl⟩]
  | cons c cs ih =>
    have other : c ≠ a := fun same => free (same ▸ List.mem_cons_self)
    rw [List.cons_append, pairPieces_cons_of_ne other,
      ih fun mem => free (List.mem_cons_of_mem _ mem)]

theorem mem_of_mem_pairPieces {c : Char} {cs part : List Char} (piece : part ∈ pairPieces a b cs)
    (mem : c ∈ part) : c ∈ cs := by
  fun_induction pairPieces a b cs generalizing part with
  | case1 =>
    obtain rfl := List.mem_singleton.mp piece
    cases mem
  | case2 d =>
    obtain rfl := List.mem_singleton.mp piece
    exact mem
  | case3 d e rest pair ih =>
    rcases List.mem_cons.mp piece with rfl | later
    · cases mem
    · exact List.mem_cons_of_mem _ (List.mem_cons_of_mem _ (ih later mem))
  | case4 d e rest single none ih =>
    obtain rfl := List.mem_singleton.mp piece
    obtain rfl := List.mem_singleton.mp mem
    exact List.mem_cons_self
  | case5 d e rest single p ps split ih =>
    rw [split] at ih
    rcases List.mem_cons.mp piece with rfl | later
    · rcases List.mem_cons.mp mem with rfl | inside
      · exact List.mem_cons_self
      · exact List.mem_cons_of_mem _ (ih List.mem_cons_self inside)
    · exact List.mem_cons_of_mem _ (ih (List.mem_cons_of_mem _ later) mem)

theorem pairPieces_intercalate {parts : List (List Char)} (some : parts ≠ [])
    (free : ∀ part ∈ parts, a ∉ part) : pairPieces a b ([a, b].intercalate parts) = parts := by
  induction parts with
  | nil => exact absurd rfl some
  | cons part parts ih =>
    have freePart := free part List.mem_cons_self
    cases parts with
    | nil => simpa using pairPieces_of_free freePart
    | cons next parts =>
      have rest := ih (by simp) fun part mem => free part (List.mem_cons_of_mem _ mem)
      rw [List.intercalate_cons_cons, List.append_assoc]
      exact (pairPieces_append freePart _).trans (congrArg _ rest)

end RubyScaffold.Text
