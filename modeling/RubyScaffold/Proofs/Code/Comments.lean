import Mathlib.Data.List.Nodup
import Mathlib.Data.String.Basic
import RubyScaffold.Code.Preamble

/-!
The magic comments of a class stand in the strict order of their keys, and they are the directives
of the class with the comment that the settings ask for put over the directive of its key.
-/

set_option autoImplicit false

namespace RubyScaffold.Code

/-- Comments in the strict order of their keys, so that no key comes twice. -/
def KeysIncrease (comments : List MagicComment) : Prop :=
  comments.Pairwise fun a b => a.key < b.key

private theorem mem_putSorted {c d : MagicComment} {comments : List MagicComment}
    (sorted : KeysIncrease comments) :
    d ∈ putSorted c comments ↔ d = c ∨ (d ∈ comments ∧ d.key ≠ c.key) := by
  induction comments with
  | nil => simp [putSorted]
  | cons e rest ih =>
    obtain ⟨above, sortedRest⟩ := List.pairwise_cons.mp sorted
    unfold putSorted
    split
    · next same =>
      -- the rest lies above the replaced comment, so no key of it is the written one
      have other : ∀ x ∈ rest, x.key ≠ c.key := fun x mem => by
        rw [same]; exact (above x mem).ne'
      simp only [List.mem_cons]
      grind
    · next differs =>
      split
      · next below =>
        have other : ∀ x ∈ rest, x.key ≠ c.key := fun x mem =>
          (below.trans (above x mem)).ne'
        simp only [List.mem_cons]
        grind
      · simp only [List.mem_cons, ih sortedRest]
        grind

private theorem KeysIncrease.put {c : MagicComment} {comments : List MagicComment}
    (sorted : KeysIncrease comments) : KeysIncrease (putSorted c comments) := by
  induction comments with
  | nil => simp [putSorted, KeysIncrease]
  | cons e rest ih =>
    obtain ⟨above, sortedRest⟩ := List.pairwise_cons.mp sorted
    unfold putSorted
    split
    · next same => exact List.pairwise_cons.mpr ⟨fun x mem => same ▸ above x mem, sortedRest⟩
    · next differs =>
      split
      · next below =>
        refine List.pairwise_cons.mpr ⟨fun x mem => ?_, sorted⟩
        rcases List.mem_cons.mp mem with rfl | mem
        · exact below
        · exact below.trans (above x mem)
      · next notBelow =>
        refine List.pairwise_cons.mpr ⟨fun x mem => ?_, ih sortedRest⟩
        rcases (mem_putSorted sortedRest).mp mem with rfl | ⟨mem, -⟩
        · exact lt_of_le_of_ne (not_lt.mp notBelow) (Ne.symm differs)
        · exact above x mem

private theorem foldl_putSorted {entries : List (String × String)} {out : List MagicComment}
    (distinct : (entries.map Prod.fst).Nodup) (sorted : KeysIncrease out) :
    KeysIncrease (entries.foldl (fun out d => putSorted ⟨d.1, d.2⟩ out) out) ∧
      ∀ d : MagicComment, d ∈ entries.foldl (fun out d => putSorted ⟨d.1, d.2⟩ out) out ↔
        (d.key, d.value) ∈ entries ∨ (d ∈ out ∧ d.key ∉ entries.map Prod.fst) := by
  induction entries generalizing out with
  | nil => exact ⟨sorted, by simp⟩
  | cons e rest ih =>
    obtain ⟨fresh, distinctRest⟩ := List.nodup_cons.mp distinct
    obtain ⟨sortedAfter, members⟩ := ih distinctRest (sorted.put (c := ⟨e.1, e.2⟩))
    refine ⟨sortedAfter, fun d => ?_⟩
    rw [List.foldl_cons, members, mem_putSorted sorted]
    have written : d = ⟨e.1, e.2⟩ ↔ (d.key, d.value) = e := by
      cases d; cases e; simp
    simp only [written, List.mem_cons, List.map_cons, not_or]
    constructor
    · rintro (mem | ⟨rfl | ⟨mem, other⟩, notLater⟩)
      · exact .inl (.inr mem)
      · exact .inl (.inl rfl)
      · exact .inr ⟨mem, other, notLater⟩
    · rintro ((rfl | mem) | ⟨mem, other, notLater⟩)
      · exact .inr ⟨.inl rfl, fresh⟩
      · exact .inl mem
      · exact .inr ⟨.inr ⟨mem, other⟩, notLater⟩

namespace Preamble

/-- The comments of a class are sorted, and they are the one that the settings ask for and the
directives that it does not replace. -/
theorem commentsFor_spec (c : ClassOutline String) (settings : Settings) :
    KeysIncrease (commentsFor c settings) ∧
      ∀ d : MagicComment, d ∈ commentsFor c settings ↔
        (settings.frozenStringLiteral = true ∧ d = .frozen) ∨
        ((d.key, d.value) ∈ c.directives.entries ∧
          (settings.frozenStringLiteral = true → d.key ≠ MagicComment.frozenKey)) := by
  have none : KeysIncrease [] := List.Pairwise.nil
  obtain ⟨sorted, members⟩ := foldl_putSorted c.directives.nodup_keys none
  unfold commentsFor
  split
  · next frozen =>
    refine ⟨sorted.put, fun d => ?_⟩
    rw [mem_putSorted sorted, members]
    simp [frozen, MagicComment.frozen]
  · next unfrozen =>
    refine ⟨sorted, fun d => ?_⟩
    rw [members]
    simp [unfrozen]

end Preamble

/-- The directives of a class and, if the settings ask for it, the frozen comment in the place of a
directive with its key. -/
def wantedDirectives (c : ClassOutline String) (settings : Settings) : List (String × String) :=
  if settings.frozenStringLiteral then
    ("frozen_string_literal", "true") ::
      c.directives.entries.filter fun d => d.1 != "frozen_string_literal"
  else c.directives.entries

private theorem nodup_wantedDirectives (c : ClassOutline String) (settings : Settings) :
    (wantedDirectives c settings).Nodup := by
  have distinct : c.directives.entries.Nodup := .of_map _ c.directives.nodup_keys
  unfold wantedDirectives
  split
  · refine List.nodup_cons.mpr ⟨fun mem => ?_, distinct.filter _⟩
    simpa using (List.mem_filter.mp mem).2
  · exact distinct

theorem mem_wantedDirectives {c : ClassOutline String} {settings : Settings}
    {d : String × String} :
    d ∈ wantedDirectives c settings ↔
      (settings.frozenStringLiteral = true ∧ d = ("frozen_string_literal", "true")) ∨
      (d ∈ c.directives.entries ∧
        (settings.frozenStringLiteral = true → d.1 ≠ "frozen_string_literal")) := by
  unfold wantedDirectives
  cases settings.frozenStringLiteral <;> simp

theorem Preamble.commentsFor_eq (c : ClassOutline String) (settings : Settings) :
    commentsFor c settings =
      ((wantedDirectives c settings).mergeSort fun a b => decide (a.1 ≤ b.1)).map
        fun d => ⟨d.1, d.2⟩ := by
  obtain ⟨sorted, members⟩ := commentsFor_spec c settings
  have distinctKeys : ((commentsFor c settings).map MagicComment.key).Nodup :=
    List.pairwise_map.mpr (sorted.imp ne_of_lt)
  have distinct : (commentsFor c settings).Nodup := .of_map _ distinctKeys
  have injective : Function.Injective fun d : String × String => MagicComment.mk d.1 d.2 :=
    fun a b same => by cases a; cases b; simpa using same
  have perm : (commentsFor c settings).Perm
      (((wantedDirectives c settings).mergeSort fun a b => decide (a.1 ≤ b.1)).map
        fun d => MagicComment.mk d.1 d.2) := by
    refine (List.perm_ext_iff_of_nodup distinct ?_).mpr fun d => ?_
    · exact ((List.mergeSort_perm _ _).nodup_iff.mpr (nodup_wantedDirectives c settings)).map
        injective
    · rw [members]
      simp only [List.mem_map, List.mem_mergeSort, mem_wantedDirectives]
      constructor
      · intro h
        refine ⟨(d.key, d.value), h.imp_left fun ⟨frozen, same⟩ => ⟨frozen, ?_⟩, rfl⟩
        rw [same]; rfl
      · rintro ⟨e, h, rfl⟩
        exact h.imp_left fun ⟨frozen, same⟩ => ⟨frozen, by rw [same]; rfl⟩
  have wanted : (((wantedDirectives c settings).mergeSort fun a b => decide (a.1 ≤ b.1)).map
      fun d => MagicComment.mk d.1 d.2).Pairwise fun a b => a.key ≤ b.key := by
    rw [List.pairwise_map]
    refine (List.pairwise_mergeSort ?_ ?_ _).imp fun below => of_decide_eq_true below
    · intro a b c below above
      exact decide_eq_true ((of_decide_eq_true below).trans (of_decide_eq_true above))
    · intro a b
      simpa using le_total a.1 b.1
  refine perm.eq_of_pairwise (fun a b memA memB below above => ?_) (sorted.imp le_of_lt) wanted
  exact List.inj_on_of_nodup_map distinctKeys memA (perm.mem_iff.mpr memB)
    (le_antisymm below above)

end RubyScaffold.Code
