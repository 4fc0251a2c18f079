import RubyScaffold.Generator
import RubyScaffold.Proofs.Files.Storing

/-!
What generating the file of a class can come to: the file is kept, its document is refused, it is
written, or the tree does not take it. In each case it is said what becomes of the tree.
-/

set_option autoImplicit false

namespace RubyScaffold

open Files (FileTree Overwrite WriteError Place)

namespace Generator

def pathIn (g : Generator) (directory : String) : String :=
  Files.join directory g.spec.filePath

def document (g : Generator) : String :=
  g.spec.document g.settings

/-- Whether the file is to be rendered: it may be overwritten, or it is not there. -/
def Due (g : Generator) (directory : String) (t : FileTree) : Prop :=
  g.overwrite = .ifMissing → t.exists? (g.pathIn directory) = false

inductive Outcome (g : Generator) (directory : String) (t : FileTree) :
    Except (WriteError RenderError) GenerateResult → FileTree → Prop
  | kept : g.overwrite = .ifMissing → t.exists? (g.pathIn directory) = true →
      Outcome g directory t (.ok { skipped := [g.spec.filePath] }) t
  | refused : g.Due directory t → (g.validator g.document).ok = false →
      Outcome g directory t
        (.error (.content (.rejected g.document (g.validator g.document).diagnostic))) t
  | written {u : FileTree} {p : Place} : g.Due directory t → (g.validator g.document).ok = true →
      t.Wrote u (g.pathIn directory) p (Text.bytes g.document) →
      Outcome g directory t (.ok { written := [g.spec.filePath] }) u
  | failed {u : FileTree} : g.Due directory t → (g.validator g.document).ok = true →
      t.Grown u (t.start (g.pathIn directory))
        (Files.pathSteps (g.pathIn directory)).dropLast →
      Outcome g directory t (.error .io) u

theorem content_eq (g : Generator) :
    g.content =
      if (g.validator g.document).ok then .ok g.document
      else .error (.rejected g.document (g.validator g.document).diagnostic) :=
  rfl

theorem preview_of_accepted {g : Generator} (accepted : (g.validator g.document).ok = true) :
    g.preview = .ok [(g.spec.filePath, g.document)] := by
  rw [preview, content_eq, if_pos accepted]
  rfl

/-- Every run of a generator comes to one of the outcomes. -/
theorem outcome_generate (g : Generator) (directory : String) (t : FileTree) :
    g.Outcome directory t (g.generate directory t).1 (g.generate directory t).2 := by
  unfold generate Files.write
  by_cases kept : g.overwrite = .ifMissing ∧ t.exists? (Files.join directory g.spec.filePath)
  · simp only [if_pos kept]
    exact .kept kept.1 kept.2
  · have due : g.Due directory t := by
      intro rule
      exact Bool.eq_false_iff.mpr fun there => kept ⟨rule, there⟩
    simp only [if_neg kept]
    cases verdict : (g.validator g.document).ok with
    | false =>
      simp only [content_eq, verdict, Bool.false_eq_true, if_false]
      exact .refused due verdict
    | true =>
      simp only [content_eq, verdict, if_true]
      cases stored : t.store (Files.join directory g.spec.filePath) (Text.bytes g.document) with
      | mk u done =>
        cases done with
        | true =>
          obtain ⟨p, wrote⟩ := FileTree.wrote_of_store stored
          exact .written due verdict wrote
        | false => exact .failed due verdict (FileTree.grown_of_store stored)

theorem outcome_of_generate {g : Generator} {directory : String} {t u : FileTree}
    {r : Except (WriteError RenderError) GenerateResult}
    (run : g.generate directory t = (r, u)) : g.Outcome directory t r u := by
  have outcome := g.outcome_generate directory t
  rw [run] at outcome
  exact outcome

namespace Outcome

variable {g : Generator} {directory : String} {t u : FileTree} {p : Place}
  {content : List UInt8} {r : Except (WriteError RenderError) GenerateResult}

theorem rooted (outcome : g.Outcome directory t r u) (before : t.Rooted) : u.Rooted := by
  cases outcome with
  | kept _ _ => exact before
  | refused _ _ => exact before
  | written _ _ wrote => exact wrote.rooted before
  | failed _ _ grown => exact grown.rooted before

theorem file_stays (outcome : g.Outcome directory t r u) (here : t.get? p = some (.file content)) :
    ∃ content', u.get? p = some (.file content') := by
  cases outcome with
  | kept _ _ => exact ⟨content, here⟩
  | refused _ _ => exact ⟨content, here⟩
  | @written _ q _ _ wrote =>
    by_cases same : p = q
    · exact ⟨_, same ▸ wrote.file⟩
    · exact ⟨content, (wrote.others p content same).mpr here⟩
  | failed _ _ grown => exact ⟨content, grown.kept p _ here⟩

/-- A generator that keeps what is there alters no file, if the path goes up only out of
directories that are there: then the path finds whatever stands where it leads. -/
theorem file_untouched (outcome : g.Outcome directory t r u) (rooted : t.Rooted)
    (rule : g.overwrite = .ifMissing)
    (seen : t.ClimbsSeen (t.start (g.pathIn directory)) (Files.pathSteps (g.pathIn directory)))
    (here : t.get? p = some (.file content)) : u.get? p = some (.file content) := by
  cases outcome with
  | kept _ _ => exact here
  | refused _ _ => exact here
  | @written _ q due _ wrote =>
    have other : p ≠ q := by
      rintro rfl
      have missing := due rule
      rw [wrote.exists?_of_file rooted seen here] at missing
      cases missing
    exact (wrote.others p content other).mpr here
  | failed _ _ grown => exact grown.kept p _ here

end Outcome

end Generator

end RubyScaffold
