import RubyScaffold.Proofs.Files.Places

/-!
Storing a file: whatever comes of it, all that stood in the tree stays but for the file itself, and
the only new directories are those that the path passes through.
-/

set_option autoImplicit false

namespace RubyScaffold.Files.FileTree

/-- A tree that has grown: what stood anywhere still stands there, and what is new are directories
that some steps pass through. -/
structure Grown (t t' : FileTree) (p : Place) (steps : List Step) : Prop where
  work : t'.work = t.work
  rooted : t.Rooted → t'.Rooted
  kept : ∀ q e, t.get? q = some e → t'.get? q = some e
  made : ∀ q e, t'.get? q = some e →
    t.get? q = some e ∨ t.get? q = none ∧ e = .directory ∧ Passes p steps q

/-- A tree in which a file was written to a path that leads to a place. The directories that are new
are those that the path passes through on its way to the file. -/
structure Wrote (t t' : FileTree) (path : String) (p : Place) (content : List UInt8) : Prop where
  work : t'.work = t.work
  rooted : t.Rooted → t'.Rooted
  goal : t.goalOf? path = some p
  read : t'.read? path = some content
  file : t'.get? p = some (.file content)
  others : ∀ q c, q ≠ p → (t'.get? q = some (.file c) ↔ t.get? q = some (.file c))
  kept : ∀ q, t.get? q ≠ none → t'.get? q ≠ none
  directories : ∀ q, t.get? q = some .directory → t'.get? q = some .directory
  made : ∀ q, t'.get? q = some .directory →
    t.get? q = some .directory ∨
      t.get? q = none ∧ Passes (t.start path) (pathSteps path).dropLast q

variable {t t' u : FileTree} {p q : Place} {steps : List Step} {path : String}
  {content : List UInt8}

private theorem Grown.refl (t : FileTree) (p : Place) (steps : List Step) : t.Grown t p steps :=
  ⟨rfl, id, fun _ _ here => here, fun _ _ here => .inl here⟩

private theorem Grown.goalOf?_eq (grown : t.Grown t' p steps) (path : String) :
    t'.goalOf? path = t.goalOf? path := by
  simp only [goalOf?, start, grown.work]

theorem Grown.file_iff (grown : t.Grown t' p steps) (q : Place) (c : List UInt8) :
    t'.get? q = some (.file c) ↔ t.get? q = some (.file c) := by
  constructor
  · intro here
    rcases grown.made q _ here with before | ⟨-, directory, -⟩
    · exact before
    · cases directory
  · exact grown.kept q _

private theorem Grown.step {s : Step} (next : target? p s = some q)
    (first : t.Grown u p (s :: steps)) (rest : u.Grown t' q steps) :
    t.Grown t' p (s :: steps) where
  work := rest.work.trans first.work
  rooted := rest.rooted ∘ first.rooted
  kept r e here := rest.kept r e (first.kept r e here)
  made r e here := by
    rcases rest.made r e here with before | ⟨absent, rfl, passes⟩
    · exact first.made r e before
    · refine .inr ⟨?_, rfl, passes.later next⟩
      cases before : t.get? r with
      | none => rfl
      | some old =>
        have kept := first.kept r old before
        rw [absent] at kept
        cases kept

private theorem grown_put {s : Step} (here : t.isDirectory p = true) (next : target? p s = some q)
    (absent : t.get? q = none) (steps : List Step) :
    t.Grown (t.put q .directory) p (s :: steps) := by
  have below : q ≠ [] := by
    rintro rfl
    simp at absent
  refine ⟨work_put t q .directory, ?_, ?_, ?_⟩
  · intro rooted
    exact rooted.put below (rooted.target here next) fun _ => rfl
  · intro r e here
    have other : r ≠ q := by
      rintro rfl
      rw [absent] at here
      cases here
    rw [get?_put t below, if_neg other]
    exact here
  · intro r e here
    rw [get?_put t below] at here
    split at here
    · next same =>
      cases here
      subst same
      exact .inr ⟨absent, rfl, .first next⟩
    · exact .inl here

private theorem grown_makeDirectories (t : FileTree) (p : Place) (steps : List Step) :
    t.Grown (t.makeDirectories p steps).1 p steps := by
  induction steps generalizing t p with
  | nil => exact .refl t p []
  | cons s rest ih =>
    rw [makeDirectories]
    split
    · next directory =>
      cases next : target? p s with
      | none => exact .refl t p _
      | some q =>
        dsimp only
        cases here : t.get? q with
        | none => exact .step next (grown_put directory next here rest) (ih (t.put q .directory) q)
        | some e =>
          cases e with
          | directory => exact .step next (.refl t p _) (ih t q)
          | file content => exact .refl t p _
    · exact .refl t p _

private theorem grown_makeAll (t : FileTree) (path : String) (steps : List Step) :
    t.Grown (t.makeAll path steps).1 (t.start path) steps := by
  unfold makeAll
  split
  · exact .refl t _ steps
  · exact grown_makeDirectories t _ steps

private theorem writeFile?_eq_some (written : t.writeFile? path content = some t') :
    ∃ p, t.place? path = some p ∧ t.get? p ≠ some .directory ∧ endsInDirectory path = false ∧
      t' = t.put p (.file content) := by
  unfold writeFile? at written
  split at written
  · cases written
  · next noDirectory =>
    cases found : t.place? path with
    | none => simp [found] at written
    | some p =>
      simp only [found] at written
      split at written
      · cases written
      · next other =>
        cases written
        exact ⟨p, rfl, other, by simpa using noDirectory, rfl⟩

/-- Where a file could not be stored, the tree has at most grown. -/
theorem grown_of_store (failed : t.store path content = (t', false)) :
    t.Grown t' (t.start path) (pathSteps path).dropLast := by
  have grown := grown_makeAll t path (pathSteps path).dropLast
  unfold store at failed
  split at failed
  · next u made =>
    cases failed
    rw [made] at grown
    exact grown
  · next u made =>
    rw [made] at grown
    split at failed <;> cases failed
    exact grown

private theorem Grown.wrote (grown : t.Grown u (t.start path) (pathSteps path).dropLast)
    (found : u.place? path = some p) (noDirectory : u.get? p ≠ some .directory)
    (isFile : endsInDirectory path = false) (content : List UInt8) :
    t.Wrote (u.put p (.file content)) path p content := by
  have below : p ≠ [] := by
    rintro rfl
    simp at noDirectory
  have fileHere : (u.put p (.file content)).get? p = some (.file content) := by
    simp [get?_put u below]
  have elsewhere : ∀ q, q ≠ p → (u.put p (.file content)).get? q = u.get? q := by
    intro q other
    rw [get?_put u below, if_neg other]
  have notHere : ∀ q, u.get? q = some .directory → q ≠ p := by
    rintro q stands rfl
    exact noDirectory stands
  exact {
    work := (work_put u p _).trans grown.work
    rooted := fun rooted => by
      have steps : pathSteps path ≠ [] := by
        intro none
        rw [endsInDirectory_of_pathSteps none] at isFile
        cases isFile
      have inside : u.isDirectory p.dropLast = true := by
        unfold place? at found
        split at found
        · cases found
        · exact (grown.rooted rooted).of_locate? steps found
      exact (grown.rooted rooted).put below inside fun stands => absurd stands noDirectory
    goal := by
      rw [← grown.goalOf?_eq]
      exact goalOf?_of_place? found
    read := by
      have place := place?_put below noDirectory content path
      simp [read?, lookup?, place, found, fileHere, isFile]
    file := fileHere
    others := fun q c other => by
      rw [elsewhere q other]
      exact grown.file_iff q c
    kept := fun q here => by
      by_cases same : q = p
      · simp [same, fileHere]
      · obtain ⟨e, stood⟩ := Option.ne_none_iff_exists'.mp here
        rw [elsewhere q same, grown.kept q e stood]
        simp
    directories := fun q here => by
      have stands := grown.kept q _ here
      rw [elsewhere q (notHere q stands)]
      exact stands
    made := fun q here => by
      have other : q ≠ p := by
        rintro rfl
        rw [fileHere] at here
        cases here
      rw [elsewhere q other] at here
      rcases grown.made q _ here with before | ⟨absent, -, passes⟩
      · exact .inl before
      · exact .inr ⟨absent, passes⟩ }

/-- Where a file could be stored, it stands at the place that its path leads to. -/
theorem wrote_of_store (done : t.store path content = (t', true)) :
    ∃ p, t.Wrote t' path p content := by
  have grown := grown_makeAll t path (pathSteps path).dropLast
  unfold store at done
  split at done
  · cases done
  · next u made =>
    rw [made] at grown
    split at done
    · next written =>
      cases done
      obtain ⟨p, found, noDirectory, isFile, rfl⟩ := writeFile?_eq_some written
      exact ⟨p, grown.wrote found noDirectory isFile content⟩
    · cases done

/-- A path that was written to found the file that stood where it leads, unless it goes up out of a
directory that was missing. -/
theorem Wrote.exists?_of_file {old : List UInt8} (wrote : t.Wrote t' path p content)
    (rooted : t.Rooted) (seen : t.ClimbsSeen (t.start path) (pathSteps path))
    (here : t.get? p = some (.file old)) : t.exists? path = true := by
  have isFile : path ≠ "" ∧ endsInDirectory path = false := file_of_read? wrote.read
  have found : t.locate? (t.start path) (pathSteps path) = some p :=
    (rooted.locate?_eq seen wrote.goal (by simp [here])).1
  simp [exists?, lookup?, place?, isFile, found, here]

end RubyScaffold.Files.FileTree
