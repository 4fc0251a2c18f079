import RubyScaffold.Class.Spec
import RubyScaffold.Proofs.Naming.FilePath

/-!
Constants written in one piece or in several. Where the names of a constant are divided into
segments, and which of them are empty, does not show in the path of its file, and the path shows the
names in their order.
-/

set_option autoImplicit false

namespace RubyScaffold

namespace Naming

open Text (pairPieces)

def qualified (names : List String) : String :=
  String.intercalate "::" names

def filled (names : List String) : List String :=
  names.filter (· ≠ "")

private theorem filled_constantParts {names : List String}
    (free : ∀ name ∈ names, ':' ∉ name.toList) :
    filled ((constantParts (qualified names).toList).map String.ofList) = filled names := by
  cases names with
  | nil => rfl
  | cons name rest =>
    have text : (qualified (name :: rest)).toList =
        [':', ':'].intercalate ((name :: rest).map String.toList) := by
      simp [qualified]
    have parts : pairPieces ':' ':' ([':', ':'].intercalate ((name :: rest).map String.toList)) =
        (name :: rest).map String.toList :=
      Text.pairPieces_intercalate (by simp) (by simpa using free)
    rw [constantParts_eq, text, parts, List.map_map]
    simp [Function.comp_def]

private theorem constantNames_qualified {groups : List (List String)}
    (free : ∀ name ∈ groups.flatten, ':' ∉ name.toList) :
    constantNames (groups.map qualified) = filled groups.flatten := by
  have each : ∀ group ∈ groups,
      filled ((constantParts (qualified group).toList).map String.ofList) = filled group :=
    fun group mem => filled_constantParts fun name inside =>
      free name (List.mem_flatten.mpr ⟨group, mem, inside⟩)
  calc constantNames (groups.map qualified)
      = groups.flatMap fun group =>
          filled ((constantParts (qualified group).toList).map String.ofList) := by
        rw [constantNames, List.flatMap_map, List.filter_flatMap]
        rfl
    _ = groups.flatMap filled := List.flatMap_congr each
    _ = filled groups.flatten := by rw [filled, List.filter_flatten, List.flatMap_def]; rfl

private theorem slash_not_mem_snakeCase {name : String} (free : '/' ∉ name.toList) :
    '/' ∉ (snakeCase name).toList := by
  rw [toList_snakeCase]
  exact fun slash => free (slash_mem_snakeList slash)

private theorem pathParts_intercalate {names : List String} (some : names ≠ [])
    (free : ∀ name ∈ names, '/' ∉ name.toList) :
    Files.pathParts (String.intercalate "/" names) = names := by
  have text : (String.intercalate "/" names).toList =
      ['/'].intercalate (names.map String.toList) := by
    simp
  rw [pathParts_eq, text, List.splitOn_intercalate '/' (by simpa using free) (by simpa using some),
    List.map_map]
  simp [Function.comp_def]

/-- The path of a constant is known from its names that are not empty, in their order: it is the
same however the names are divided into segments, be it between the modules around a class and its
own name or by double colons at the front of a segment. Without its extension the path has, if the
names hold no slashes, exactly these names in snake case between its slashes. -/
theorem constantFilePath_of_grouping (groups : List (List String))
    (free : ∀ name ∈ groups.flatten, ':' ∉ name.toList) :
    constantFilePath (groups.map qualified) =
      String.intercalate "/" ((filled groups.flatten).map snakeCase) ++ ".rb" ∧
    (∀ others : List (List String), (∀ name ∈ others.flatten, ':' ∉ name.toList) →
      filled others.flatten = filled groups.flatten →
        constantFilePath (others.map qualified) = constantFilePath (groups.map qualified) ∧
        ∀ spec : ClassSpec, spec.scopes ++ [spec.name] = others.map qualified →
          spec.filePath = constantFilePath (groups.map qualified)) ∧
    ((∃ name ∈ groups.flatten, name ≠ "") → (∀ name ∈ groups.flatten, '/' ∉ name.toList) →
      ∃ stem, constantFilePath (groups.map qualified) = stem ++ ".rb" ∧
        Files.pathParts stem = (filled groups.flatten).map snakeCase) := by
  have path : constantFilePath (groups.map qualified) =
      String.intercalate "/" ((filled groups.flatten).map snakeCase) ++ ".rb" := by
    rw [constantFilePath, constantNames_qualified free]
  refine ⟨path, ?_, ?_⟩
  · intro others freeOthers same
    have again : constantFilePath (others.map qualified) =
        constantFilePath (groups.map qualified) := by
      rw [constantFilePath, constantNames_qualified freeOthers, same, path]
    refine ⟨again, fun spec division => ?_⟩
    rw [ClassOutline.filePath, division, again]
  · rintro ⟨name, mem, own⟩ plain
    have some : filled groups.flatten ≠ [] :=
      List.ne_nil_of_mem (List.mem_filter.mpr ⟨mem, by simpa using own⟩)
    refine ⟨_, path, pathParts_intercalate (by simpa using some) ?_⟩
    intro part inside
    obtain ⟨word, counted, rfl⟩ := List.mem_map.mp inside
    exact slash_not_mem_snakeCase (plain word (List.mem_filter.mp counted).1)

def deskGroups : List (List String) :=
  [["Grand", "HTTPLobby"], [""], ["Desk", "", "Concierge"]]

def concierge : ClassSpec :=
  ⟨{ name := "Desk::Concierge", scopes := ["::Grand", "HTTPLobby"] }, rfl⟩

theorem constantFilePath_of_grouping_concierge :
    (∀ name ∈ deskGroups.flatten, ':' ∉ name.toList ∧ '/' ∉ name.toList) ∧
    deskGroups.map qualified = ["Grand::HTTPLobby", "", "Desk::::Concierge"] ∧
    constantFilePath (deskGroups.map qualified) = "grand/http_lobby/desk/concierge.rb" ∧
    concierge.filePath = constantFilePath (deskGroups.map qualified) ∧
    ∃ stem, constantFilePath (deskGroups.map qualified) = stem ++ ".rb" ∧
      Files.pathParts stem = ["grand", "http_lobby", "desk", "concierge"] := by
  have plain : ∀ name ∈ deskGroups.flatten, ':' ∉ name.toList ∧ '/' ∉ name.toList := by decide
  have names : (filled deskGroups.flatten).map snakeCase =
      ["grand", "http_lobby", "desk", "concierge"] := by decide +kernel
  obtain ⟨path, anew, split⟩ := constantFilePath_of_grouping deskGroups fun name mem =>
    (plain name mem).1
  obtain ⟨-, moved⟩ := anew [["", "Grand"], ["HTTPLobby"], ["Desk", "Concierge"]] (by decide) rfl
  obtain ⟨stem, ends, between⟩ := split ⟨"Grand", by decide, by decide⟩ fun name mem =>
    (plain name mem).2
  rw [names] at path between
  exact ⟨plain, by decide, path.trans (by decide), moved concierge (by decide), stem, ends, between⟩

end Naming

end RubyScaffold
