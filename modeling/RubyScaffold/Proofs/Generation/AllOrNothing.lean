import RubyScaffold.Proofs.Generation.Outcomes

/-!
Generating is all or nothing: what is refused or kept leaves the tree as it was, what is written is
what the preview shows, and a failure of the tree touches no file.
-/

set_option autoImplicit false

namespace RubyScaffold.Generator

open Files (FileTree Overwrite WriteError)

/-- What generating does to a tree and what it reports. A document that is due and refused leaves
the tree alone, and so does a file that is kept, whatever its document would be. A file that is
written holds what the preview shows, and nothing else is touched but for directories on the way
to it. A failure of the tree changes no file. A report lists one path, once, and it is the
preview's. -/
theorem generate_all_or_nothing (g : Generator) (directory : String) (t : FileTree) :
    (g.Due directory t → (g.validator g.document).ok = false →
      g.generate directory t =
        (.error (.content (.rejected g.document (g.validator g.document).diagnostic)), t)) ∧
    (g.overwrite = .ifMissing → t.exists? (g.pathIn directory) = true →
      g.generate directory t = (.ok { skipped := [g.spec.filePath] }, t)) ∧
    (∀ r u, g.generate directory t = (.ok r, u) → r.written ≠ [] →
      ∃ text p, g.preview = .ok [(g.spec.filePath, text)] ∧
        t.Wrote u (g.pathIn directory) p (Text.bytes text)) ∧
    (∀ u, g.generate directory t = (.error .io, u) →
      ∀ q c, u.get? q = some (.file c) ↔ t.get? q = some (.file c)) ∧
    (∀ r u, g.generate directory t = (.ok r, u) →
      (r.written = [g.spec.filePath] ∧ r.skipped = [] ∨
        r.written = [] ∧ r.skipped = [g.spec.filePath]) ∧
      ∀ files, g.preview = .ok files → files.map Prod.fst = [g.spec.filePath]) := by
  refine ⟨?_, ?_, ?_, ?_, ?_⟩
  · intro due rejected
    generalize run : g.generate directory t = result
    obtain ⟨r, u⟩ := result
    cases outcome_of_generate run with
    | kept rule there => simp [due rule] at there
    | refused _ _ => rfl
    | written _ accepted _ => simp [rejected] at accepted
    | failed _ accepted _ => simp [rejected] at accepted
  · intro rule there
    generalize run : g.generate directory t = result
    obtain ⟨r, u⟩ := result
    cases outcome_of_generate run with
    | kept _ _ => rfl
    | refused due _ => simp [due rule] at there
    | written due _ _ => simp [due rule] at there
    | failed due _ _ => simp [due rule] at there
  · intro r u run some
    cases outcome_of_generate run with
    | kept _ _ => exact absurd rfl some
    | written _ accepted wrote => exact ⟨g.document, _, preview_of_accepted accepted, wrote⟩
  · intro u run
    cases outcome_of_generate run with
    | failed _ _ grown => exact grown.file_iff
  · intro r u run
    refine ⟨?_, ?_⟩
    · cases outcome_of_generate run with
      | kept _ _ => exact .inr ⟨rfl, rfl⟩
      | written _ _ _ => exact .inl ⟨rfl, rfl⟩
    · intro files shown
      unfold preview at shown
      cases content : g.content with
      | error e => rw [content] at shown; cases shown
      | ok text => rw [content] at shown; cases shown; rfl

def mug (rule : Overwrite) (verdict : Report) : Generator where
  spec := ⟨{ name := "Mug" }, rfl⟩
  validator := fun _ => verdict
  overwrite := rule

def shelf : FileTree where
  entries := [(["mug.rb"], .file [104, 105]), (["box"], .file [])]

theorem generate_all_or_nothing_mug :
    (mug .always (.invalid "no")).generate "new" shelf =
      (.error (.content (.rejected (mug .always (.invalid "no")).document (some "no"))), shelf) ∧
    (mug .ifMissing (.invalid "no")).generate "" shelf = (.ok { skipped := ["mug.rb"] }, shelf) ∧
    (∃ text u p, (mug .ifMissing .valid).preview = .ok [("mug.rb", text)] ∧
      shelf.Wrote u "new/mug.rb" p (Text.bytes text)) ∧
    (∃ u, (mug .always .valid).generate "box" shelf = (.error .io, u) ∧
      u.get? ["mug.rb"] = some (.file [104, 105])) := by
  have filePath : ∀ rule verdict, (mug rule verdict).spec.filePath = "mug.rb" := by
    intro rule verdict
    exact (by decide +kernel : ({ name := "Mug" } : ClassOutline String).filePath = "mug.rb")
  refine ⟨?_, ?_, ?_, ?_⟩
  · exact (generate_all_or_nothing (mug .always (.invalid "no")) "new" shelf).1
      (fun rule => by cases rule) rfl
  · have there : shelf.exists? ((mug .ifMissing (.invalid "no")).pathIn "") = true := by
      rw [pathIn, filePath]
      decide
    have kept := (generate_all_or_nothing (mug .ifMissing (.invalid "no")) "" shelf).2.1 rfl there
    rw [filePath] at kept
    exact kept
  · have all := generate_all_or_nothing (mug .ifMissing .valid) "new" shelf
    have done : (mug .ifMissing .valid).generate "new" shelf =
        (.ok { written := ["mug.rb"] },
          (shelf.store "new/mug.rb" (Text.bytes (mug .ifMissing .valid).document)).1) := by
      rw [generate, filePath, content_eq]
      rfl
    obtain ⟨text, p, shown, wrote⟩ := all.2.2.1 _ _ done (by simp)
    rw [pathIn, filePath] at wrote
    rw [filePath] at shown
    exact ⟨text, _, p, shown, wrote⟩
  · have all := generate_all_or_nothing (mug .always .valid) "box" shelf
    have done : (mug .always .valid).generate "box" shelf = (.error .io, shelf) := by
      rw [generate, filePath, content_eq]
      rfl
    exact ⟨shelf, done, (all.2.2.2.1 shelf done ["mug.rb"] _).mpr rfl⟩

end RubyScaffold.Generator
