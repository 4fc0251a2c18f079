import RubyScaffold.Code.Document
import RubyScaffold.Proofs.Code.Comments
import RubyScaffold.Proofs.OrderedMap

/-!
The magic comments of a class as a map in the order of its keys: which keys it has, what they are
set to, and that it does not show the order in which the directives were declared.
-/

set_option autoImplicit false

namespace RubyScaffold

def Text.codePoints (s : String) : List Nat :=
  s.toList.map Char.toNat

private theorem Text.lt_iff_codePoints {s t : String} : s < t ↔ codePoints s < codePoints t := by
  have step : ∀ xs ys : List Char, xs < ys ↔ xs.map Char.toNat < ys.map Char.toNat := by
    intro xs
    induction xs with
    | nil => intro ys; cases ys <;> simp
    | cons x xs ih =>
      intro ys
      cases ys with
      | nil => simp
      | cons y ys =>
        have less : x < y ↔ x.toNat < y.toNat := Iff.rfl
        have same : x = y ↔ x.toNat = y.toNat := Char.toNat_inj.symm
        rw [List.map_cons, List.map_cons, List.cons_lt_cons_iff, List.cons_lt_cons_iff, ih, less,
          same]
  rw [String.lt_iff_toList_lt, codePoints, codePoints, step]

namespace Code

private theorem KeysIncrease.ext {xs ys : List MagicComment} (sortedX : KeysIncrease xs)
    (sortedY : KeysIncrease ys) (same : ∀ c, c ∈ xs ↔ c ∈ ys) : xs = ys := by
  have distinct : ∀ zs, KeysIncrease zs → zs.Nodup := fun zs sorted =>
    sorted.imp fun below same => below.ne (congrArg MagicComment.key same)
  have perm : xs.Perm ys :=
    (List.perm_ext_iff_of_nodup (distinct xs sortedX) (distinct ys sortedY)).mpr same
  exact perm.eq_of_pairwise (fun _ _ _ _ below above => absurd below above.asymm) sortedX sortedY

namespace Preamble

private theorem commentsFor_perm {c d : ClassOutline String} (settings : Settings)
    (perm : c.directives.entries.Perm d.directives.entries) :
    commentsFor c settings = commentsFor d settings := by
  obtain ⟨sortedC, membersC⟩ := commentsFor_spec c settings
  obtain ⟨sortedD, membersD⟩ := commentsFor_spec d settings
  refine sortedC.ext sortedD fun comment => ?_
  rw [membersC, membersD, perm.mem_iff]

private theorem mem_keys_commentsFor {c : ClassOutline String} {settings : Settings}
    {key : String} :
    key ∈ (commentsFor c settings).map MagicComment.key ↔
      key ∈ c.directives.keys ∨
        (key = "frozen_string_literal" ∧ settings.frozenStringLiteral = true) := by
  obtain ⟨-, members⟩ := commentsFor_spec c settings
  constructor
  · intro mem
    obtain ⟨comment, own, rfl⟩ := List.mem_map.mp mem
    rcases (members comment).mp own with ⟨frozen, rfl⟩ | ⟨declared, -⟩
    · exact .inr ⟨rfl, frozen⟩
    · exact .inl (List.mem_map_of_mem declared)
  · intro wanted
    by_cases asked : key = "frozen_string_literal" ∧ settings.frozenStringLiteral = true
    · obtain ⟨rfl, frozen⟩ := asked
      exact List.mem_map_of_mem (f := MagicComment.key)
        ((members .frozen).mpr (.inl ⟨frozen, rfl⟩))
    · obtain ⟨⟨own, value⟩, declared, rfl⟩ := List.mem_map.mp (wanted.resolve_right asked)
      have shown : settings.frozenStringLiteral = true → own ≠ MagicComment.frozenKey :=
        fun frozen same => asked ⟨same, frozen⟩
      exact List.mem_map_of_mem (f := MagicComment.key)
        ((members ⟨own, value⟩).mpr (.inr ⟨declared, shown⟩))

private theorem value_of_mem_commentsFor {c : ClassOutline String} {settings : Settings}
    {comment : MagicComment} (mem : comment ∈ commentsFor c settings) :
    if comment.key = "frozen_string_literal" ∧ settings.frozenStringLiteral = true then
      comment.value = "true"
    else c.directives.entries.lookup comment.key = some comment.value := by
  rcases ((commentsFor_spec c settings).2 comment).mp mem with ⟨frozen, rfl⟩ | ⟨declared, shown⟩
  · simp [MagicComment.frozen, MagicComment.frozenKey, frozen]
  · have other : ¬ (comment.key = "frozen_string_literal" ∧
        settings.frozenStringLiteral = true) := by
      rintro ⟨same, frozen⟩
      exact shown frozen same
    rw [if_neg other, OrderedMap.lookup_eq_some_iff]
    exact declared

end Preamble

end Code

open Code

/-- The magic comments of a class are a map in the order of its keys: the keys strictly increase
code point by code point, they are those of the directives and the one that the settings ask for,
and each is set to what the settings ask for or else to what its directive says. The document is the
same in whatever order the directives were declared. -/
theorem ClassSpec.comments_sorted_map (spec : ClassSpec) (settings : Settings) :
    let comments := (Preamble.ofClass spec.toClassOutline settings).comments
    (comments.Pairwise fun a b => Text.codePoints a.key < Text.codePoints b.key) ∧
    (∀ key, key ∈ comments.map MagicComment.key ↔
      key ∈ spec.directives.keys ∨
        (key = "frozen_string_literal" ∧ settings.frozenStringLiteral = true)) ∧
    (∀ comment ∈ comments,
      if comment.key = "frozen_string_literal" ∧ settings.frozenStringLiteral = true then
        comment.value = "true"
      else spec.directives.entries.lookup comment.key = some comment.value) ∧
    ∀ other : ClassSpec,
      other.toClassOutline = { spec.toClassOutline with directives := other.directives } →
      other.directives.entries.Perm spec.directives.entries →
      other.document settings = spec.document settings := by
  refine ⟨?_, fun key => Preamble.mem_keys_commentsFor,
    fun comment => Preamble.value_of_mem_commentsFor, fun other rest perm => ?_⟩
  · have sorted := (Preamble.commentsFor_spec spec.toClassOutline settings).1
    exact sorted.imp Text.lt_iff_codePoints.mp
  · have comments := Preamble.commentsFor_perm settings perm
    have preamble : Preamble.ofClass other.toClassOutline settings =
        Preamble.ofClass spec.toClassOutline settings := by
      rw [Preamble.ofClass, Preamble.ofClass, comments, rest]
    have body : classFragments other.toClassOutline = classFragments spec.toClassOutline := by
      rw [rest]
      rfl
    have scopes : other.scopes = spec.scopes := by rw [rest]
    rw [ClassSpec.document, ClassSpec.document, ClassSpec.fragments, ClassSpec.fragments, preamble,
      body, scopes]

/-- A class whose directives stand around the one that the settings replace, in some order. -/
def samovar (directives : OrderedMap String) : ClassSpec where
  name := "Samovar"
  fields := ["@lid"]
  directives := directives
  sound := by rfl

theorem ClassSpec.comments_sorted_map_samovar :
    let declared := samovar (.ofList [("typed", "strict"), ("frozen_string_literal", "false"),
      ("été", "1"), ("frozen", "no"), ("Typed", "true")])
    let shuffled := samovar (.ofList [("été", "1"), ("Typed", "true"), ("frozen", "no"),
      ("typed", "strict"), ("frozen_string_literal", "false")])
    let comments := (Preamble.ofClass declared.toClassOutline {}).comments
    comments.map MagicComment.key =
        ["Typed", "frozen", "frozen_string_literal", "typed", "été"] ∧
      ⟨"typed", "strict"⟩ ∈ comments ∧
      declared.directives.entries.lookup "typed" = some "strict" ∧
      shuffled.toClassOutline =
        { declared.toClassOutline with directives := shuffled.directives } ∧
      shuffled.directives.entries.Perm declared.directives.entries ∧
      shuffled.document {} = declared.document {} := by
  intro declared shuffled comments
  have typed : ⟨"typed", "strict"⟩ ∈ comments := by decide
  have perm : shuffled.directives.entries.Perm declared.directives.entries := by decide
  obtain ⟨-, -, values, same⟩ := declared.comments_sorted_map {}
  exact ⟨by decide, typed, values ⟨"typed", "strict"⟩ typed, rfl, perm, same shuffled rfl perm⟩

end RubyScaffold
