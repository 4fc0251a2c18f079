import RubyScaffold.Generator
import RubyScaffold.Grammar.Check
import RubyScaffold.Proofs.Files.Places
import RubyScaffold.Proofs.Naming.FilePath

/-!
Which classes are kept below the directory that they are generated into. The names of a class are
not checked for what means something in a path, so one of them may lead out of the directory; said
exactly, that is when one of the parts that slashes cut them into, but for the last, is empty,
stays or goes up.
-/

set_option autoImplicit false

namespace RubyScaffold

open Files (FileTree Place)

namespace Files

/-- A part of a path that leads down: it is not empty and neither stays nor goes up. -/
def LeadsDown (part : String) : Prop :=
  part ≠ "" ∧ part ≠ "." ∧ part ≠ ".."

/-- A relative path that cannot leave the directory it is joined to. -/
def Confined (path : String) : Prop :=
  isAbsolute path = false ∧ ∀ part ∈ pathParts path, LeadsDown part

variable {path : String}

private theorem step?_of_leadsDown {part : String} (down : LeadsDown part) :
    step? part = some (.down part) := by
  simp [step?, down.1, down.2.1, down.2.2]

private theorem empty_mem_of_isAbsolute (absolute : isAbsolute path = true) :
    "" ∈ pathParts path := by
  have slash : path.toList.head? = some '/' := of_decide_eq_true absolute
  obtain ⟨rest, text⟩ := List.head?_eq_some_iff.mp slash
  rw [Naming.pathParts_eq, text, List.splitOn_cons_eq_if_modifyHead]
  simp

private theorem confined_iff : Confined path ↔ ∀ part ∈ pathParts path, LeadsDown part := by
  refine and_iff_right_of_imp fun down => ?_
  rw [Bool.eq_false_iff]
  intro absolute
  exact (down "" (empty_mem_of_isAbsolute absolute)).1 rfl

private theorem pathSteps_of_confined (confined : Confined path) :
    pathSteps path = (pathParts path).map .down := by
  have every : ∀ parts : List String, (∀ part ∈ parts, LeadsDown part) →
      parts.filterMap step? = parts.map .down := by
    intro parts down
    induction parts with
    | nil => rfl
    | cons part rest ih =>
      obtain ⟨first, others⟩ := List.forall_mem_cons.mp down
      rw [List.filterMap_cons, step?_of_leadsDown first, ih others, List.map_cons]
  exact every _ confined.2

private theorem pathSteps_join (relative : isAbsolute path = false) (directory : String) :
    pathSteps (join directory path) = pathSteps directory ++ pathSteps path := by
  have stays : step? "" = none := by decide
  have cut : ∀ front : List Char, ∀ text : String, text.toList = front ++ '/' :: path.toList →
      pathSteps text = ((front.splitOn '/').map String.ofList).filterMap step? ++
        pathSteps path := by
    intro front text whole
    simp only [pathSteps, Naming.pathParts_eq, whole, List.splitOn_append_cons_self,
      List.map_append, List.filterMap_append]
  unfold join
  by_cases here : directory = ""
  · subst here
    have none : pathSteps "" = [] := by decide
    simp [none]
  · rw [if_neg (by simp [relative, here])]
    split
    · next ends =>
      obtain ⟨front, text⟩ := List.getLast?_eq_some_iff.mp ends
      rw [cut front (directory ++ path) (by simp [text])]
      simp [pathSteps, Naming.pathParts_eq, text, List.splitOn_append_cons_self, stays]
    · rw [cut directory.toList (directory ++ "/" ++ path) (by simp)]
      simp only [pathSteps, Naming.pathParts_eq]

private theorem isAbsolute_join (relative : isAbsolute path = false) (directory : String) :
    isAbsolute (join directory path) = isAbsolute directory := by
  unfold join
  by_cases here : directory = ""
  · subst here
    rw [if_pos (.inr rfl), relative]
    decide
  · have some : directory.toList ≠ [] := by simpa using here
    rw [if_neg (by simp [relative, here])]
    cases text : directory.toList with
    | nil => exact absurd text some
    | cons c rest => split <;> simp [isAbsolute, text]

namespace FileTree

variable {t : FileTree} {p q : Place}

private theorem goal?_append (p : Place) (first rest : List Step) :
    goal? p (first ++ rest) = (goal? p first).bind fun q => goal? q rest := by
  induction first generalizing p with
  | nil => rfl
  | cons s first ih =>
    rw [List.cons_append, goal?, goal?]
    cases target? p s with
    | none => rfl
    | some q => exact ih q

private theorem goal?_down {names : List String} (leads : goal? p (names.map .down) = some q) :
    q = p ++ names := by
  induction names generalizing p with
  | nil => simpa [goal?, eq_comm] using leads
  | cons name rest ih =>
    obtain ⟨r, next, leads⟩ := Option.bind_eq_some_iff.mp leads
    obtain rfl : p ++ [name] = r := by
      simp only [target?] at next
      split at next
      · exact Option.some.inj next
      · cases next
    rw [ih leads, List.append_assoc, List.singleton_append]

/-- Where a confined path leads from a directory, its parts lead down from there. -/
private theorem goalOf?_join {path : String} (confined : Confined path) {directory : String}
    (leads : t.goalOf? (join directory path) = some p) :
    ∃ base, t.goalOf? directory = some base ∧ p = base ++ pathParts path := by
  have begins : t.start (join directory path) = t.start directory := by
    rw [start, start, isAbsolute_join confined.1]
  rw [goalOf?, begins, pathSteps_join confined.1, goal?_append] at leads
  obtain ⟨base, there, below⟩ := Option.bind_eq_some_iff.mp leads
  rw [pathSteps_of_confined confined] at below
  exact ⟨base, there, goal?_down below⟩

end FileTree

end Files

def ClassOutline.nameParts {δ : Type} (c : ClassOutline δ) : List String :=
  (Naming.constantNames (c.scopes ++ [c.name])).flatMap Files.pathParts

private theorem Naming.leadsDown_snakeCase_iff (part : String) :
    Files.LeadsDown (snakeCase part) ↔ Files.LeadsDown part := by
  have dots : ∀ n, snakeCase part = String.ofList (List.replicate n '.') ↔
      part = String.ofList (List.replicate n '.') := by
    intro n
    rw [← String.toList_inj, ← String.toList_inj, toList_snakeCase, String.toList_ofList]
    exact snakeList_eq_dots_iff n
  have empty := dots 0
  have one := dots 1
  have two := dots 2
  exact and_congr (not_congr empty) (and_congr (not_congr one) (not_congr two))

private theorem Files.leadsDown_extended (part : String) : LeadsDown (part ++ ".rb") := by
  have long : ∀ s : String, s.toList.length < 3 → part ++ ".rb" ≠ s := by
    rintro s short rfl
    simp at short
  exact ⟨long "" (by decide), long "." (by decide), long ".." (by decide)⟩

private theorem ClassSpec.confined_iff_nameParts (spec : ClassSpec) :
    Files.Confined spec.filePath ↔ ∀ part ∈ spec.nameParts.dropLast, Files.LeadsDown part := by
  rw [Files.confined_iff, ClassOutline.filePath, Naming.pathParts_constantFilePath]
  simp only [List.mem_append, List.mem_map, List.mem_singleton]
  constructor
  · intro down part mem
    exact (Naming.leadsDown_snakeCase_iff part).mp (down _ (.inl ⟨part, mem, rfl⟩))
  · rintro down part (⟨name, mem, rfl⟩ | rfl)
    · exact (Naming.leadsDown_snakeCase_iff name).mpr (down name mem)
    · exact Files.leadsDown_extended _

namespace Naming

private theorem mem_of_mem_constantParts {c : Char} {cs part : List Char}
    (piece : part ∈ constantParts cs) (mem : c ∈ part) : c ∈ cs := by
  rw [constantParts_eq] at piece
  exact Text.mem_of_mem_pairPieces piece mem

private theorem constantNames_spec {segments : List String} {name : String}
    (mem : name ∈ constantNames segments) :
    name ≠ "" ∧ ∀ c ∈ name.toList, ∃ segment ∈ segments, c ∈ segment.toList := by
  obtain ⟨inside, filled⟩ := List.mem_filter.mp mem
  obtain ⟨segment, there, found⟩ := List.mem_flatMap.mp inside
  obtain ⟨part, piece, rfl⟩ := List.mem_map.mp found
  refine ⟨of_decide_eq_true filled, fun c here => ⟨segment, there, ?_⟩⟩
  rw [String.toList_ofList] at here
  exact mem_of_mem_constantParts piece here

end Naming

private theorem ClassSpec.confined_of_plainNames {spec : ClassSpec}
    (plain : ∀ name ∈ spec.scopes ++ [spec.name], '/' ∉ name.toList ∧ '.' ∉ name.toList) :
    Files.Confined spec.filePath := by
  rw [confined_iff_nameParts]
  intro part mem
  obtain ⟨name, listed, piece⟩ := List.mem_flatMap.mp (List.mem_of_mem_dropLast mem)
  obtain ⟨filled, from'⟩ := Naming.constantNames_spec listed
  have free : ∀ c ∈ name.toList, c ≠ '/' ∧ c ≠ '.' := by
    intro c here
    obtain ⟨segment, there, inside⟩ := from' c here
    obtain ⟨noSlash, noDot⟩ := plain segment there
    exact ⟨fun same => noSlash (same ▸ inside), fun same => noDot (same ▸ inside)⟩
  have whole : part = name := by
    have noSlash : '/' ∉ name.toList := fun here => (free _ here).1 rfl
    rw [Naming.pathParts_eq, List.splitOn_eq_singleton noSlash] at piece
    simpa using piece
  have noDot : '.' ∉ part.toList := by
    rw [whole]
    exact fun here => (free _ here).2 rfl
  refine ⟨whole ▸ filled, ?_, ?_⟩
  · rintro rfl
    exact noDot (by decide)
  · rintro rfl
    exact noDot (by decide)

/-- The file of a class stays below the directory it is generated into exactly if the parts that
slashes cut its names into lead down, but for the last, which gets the extension. It does so where
no name holds a slash or a dot, and then its place lies below that of the directory. -/
theorem ClassSpec.file_below_directory (spec : ClassSpec) :
    (Files.Confined spec.filePath ↔ ∀ part ∈ spec.nameParts.dropLast, Files.LeadsDown part) ∧
    ((∀ name ∈ spec.scopes ++ [spec.name], '/' ∉ name.toList ∧ '.' ∉ name.toList) →
      Files.Confined spec.filePath) ∧
    (Files.Confined spec.filePath → ∀ (t : FileTree) (directory : String) (p : Place),
      t.goalOf? (Files.join directory spec.filePath) = some p →
        ∃ base, t.goalOf? directory = some base ∧ p = base ++ Files.pathParts spec.filePath) :=
  ⟨spec.confined_iff_nameParts, confined_of_plainNames, fun confined _ _ _ leads =>
    Files.FileTree.goalOf?_join confined leads⟩

def httpClient : ClassSpec :=
  ⟨{ name := "Net::HTTPClient", scopes := ["Admin"] }, rfl⟩

theorem file_below_directory_httpClient :
    Files.Confined httpClient.filePath ∧
      ∃ base, ({} : FileTree).goalOf? "lib" = some base ∧
        ["lib", "admin", "net", "http_client.rb"] =
          base ++ Files.pathParts httpClient.filePath := by
  have below := httpClient.file_below_directory
  have confined := below.2.1 (by decide)
  exact ⟨confined, below.2.2 confined {} "lib" _ (by decide +kernel)⟩

/-- A class with a name that the grammar takes for a constant and a comment. -/
def commentedName : Generator where
  spec := ⟨{ name := "Greeter #/../../x" }, rfl⟩
  validator := Grammar.parser.report

/-- A file may land beside the directory that it is generated into, from a document that the
grammar accepts. -/
theorem commented_name_leaves_directory :
    ¬ Files.Confined commentedName.spec.filePath ∧
      (commentedName.generate "out" { entries := [(["out"], .directory)] }).2.get? ["x.rb"] =
        some (.file (Text.bytes (commentedName.spec.document commentedName.settings))) := by
  refine ⟨?_, by decide +kernel⟩
  rw [ClassSpec.confined_iff_nameParts]
  intro down
  exact (down ".." (by decide +kernel)).2.2 rfl

end RubyScaffold
