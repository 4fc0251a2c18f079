import RubyScaffold.Proofs.Code.Reference
import RubyScaffold.Proofs.Generation.Outcomes

/-!
Runs of generate calls, one after the other on one tree: which call a file was last written by, and
that files stay.
-/

set_option autoImplicit false

namespace RubyScaffold

open Files (FileTree Overwrite WriteError Place)

structure GenerateCall where
  generator : Generator
  directory : String

namespace GenerateCall

variable {c d : GenerateCall} {t : FileTree} {p : Place} {content : List UInt8}
  {calls rest : List GenerateCall}

def path (c : GenerateCall) : String :=
  c.generator.pathIn c.directory

def result (c : GenerateCall) (t : FileTree) : Except (WriteError RenderError) GenerateResult :=
  (c.generator.generate c.directory t).1

def after (c : GenerateCall) (t : FileTree) : FileTree :=
  (c.generator.generate c.directory t).2

/-- Whether the call reports the file at a place as written. -/
def Reports (c : GenerateCall) (t : FileTree) (p : Place) : Prop :=
  t.goalOf? c.path = some p ∧ ∃ r, c.result t = .ok r ∧ r.written ≠ []

def Shows (c : GenerateCall) (content : List UInt8) : Prop :=
  ∃ text, c.generator.preview = .ok [(c.generator.spec.filePath, text)] ∧
    content = Text.bytes text

def treeAfter (t : FileTree) (calls : List GenerateCall) : FileTree :=
  calls.foldl (fun u c => c.after u) t

/-- Whether no call of a run reports the file at a place. -/
def Unreported (t : FileTree) (calls : List GenerateCall) (p : Place) : Prop :=
  ∀ before c later, calls = before ++ c :: later → ¬ c.Reports (treeAfter t before) p

/-- Whether a call is the last of a run that reports the file at a place. -/
def LastReport (t : FileTree) (calls : List GenerateCall) (p : Place) (c : GenerateCall) : Prop :=
  ∃ before later, calls = before ++ c :: later ∧ c.Reports (treeAfter t before) p ∧
    Unreported (treeAfter t (before ++ [c])) later p

/-- Whether a call writes only where nothing stands, below a directory whose path goes up only out
of directories that are there. -/
def Careful (c : GenerateCall) (t : FileTree) : Prop :=
  c.generator.overwrite = .ifMissing ∧
    t.ClimbsSeen (t.start c.path) (Files.pathSteps c.path)

@[simp] theorem treeAfter_nil (t : FileTree) : treeAfter t [] = t := rfl

@[simp] theorem treeAfter_cons (t : FileTree) (c : GenerateCall) (calls : List GenerateCall) :
    treeAfter t (c :: calls) = treeAfter (c.after t) calls := rfl

private theorem treeAfter_append (t : FileTree) (calls others : List GenerateCall) :
    treeAfter t (calls ++ others) = treeAfter (treeAfter t calls) others :=
  List.foldl_append

private theorem outcome (c : GenerateCall) (t : FileTree) :
    c.generator.Outcome c.directory t (c.result t) (c.after t) :=
  c.generator.outcome_generate c.directory t

private theorem unreported_cons :
    Unreported t (c :: rest) p ↔ ¬ c.Reports t p ∧ Unreported (c.after t) rest p := by
  constructor
  · intro none
    exact ⟨none [] c rest rfl, fun before d later split =>
      none (c :: before) d later (by rw [split]; rfl)⟩
  · rintro ⟨first, others⟩ before d later split
    cases before with
    | nil =>
      cases split
      exact first
    | cons b before =>
      obtain ⟨rfl, rest⟩ := List.cons.inj split
      exact others before d later rest

private theorem lastReport_cons :
    LastReport t (c :: rest) p d ↔
      LastReport (c.after t) rest p d ∨
        d = c ∧ c.Reports t p ∧ Unreported (c.after t) rest p := by
  constructor
  · rintro ⟨before, later, split, reports, others⟩
    cases before with
    | nil =>
      cases split
      exact .inr ⟨rfl, reports, others⟩
    | cons b before =>
      obtain ⟨rfl, rest⟩ := List.cons.inj split
      exact .inl ⟨before, later, rest, reports, others⟩
  · rintro (⟨before, later, rfl, reports, others⟩ | ⟨rfl, reports, others⟩)
    · exact ⟨c :: before, later, rfl, reports, others⟩
    · exact ⟨[], rest, rfl, reports, others⟩

/-- What one call does to the files of a tree: the one it reports holds what the preview shows, and
all others are as they were. -/
private theorem file_after (c : GenerateCall) (t : FileTree) (p : Place) (content : List UInt8) :
    (c.after t).get? p = some (.file content) ↔
      c.Reports t p ∧ c.Shows content ∨
        ¬ c.Reports t p ∧ t.get? p = some (.file content) := by
  have outcome := c.outcome t
  generalize reported : c.result t = r at outcome
  generalize c.after t = u at outcome ⊢
  cases outcome with
  | kept _ _ => simp [Reports, reported]
  | refused _ _ => simp [Reports, reported]
  | failed _ _ grown => simpa [Reports, reported] using grown.file_iff p content
  | @written _ q _ accepted wrote =>
    have shown : c.Shows content ↔ content = Text.bytes c.generator.document := by
      simp [Shows, Generator.preview_of_accepted accepted]
    have reports : c.Reports t p ↔ q = p := by
      have goal : t.goalOf? c.path = some q := wrote.goal
      simp [Reports, reported, goal]
    rw [shown, reports]
    by_cases here : q = p
    · subst here
      simp [wrote.file, eq_comm]
    · simp [here, wrote.others p content (Ne.symm here)]

private theorem file_after_run (calls : List GenerateCall) (t : FileTree) (p : Place)
    (content : List UInt8) :
    (treeAfter t calls).get? p = some (.file content) ↔
      (∃ c, LastReport t calls p c ∧ c.Shows content) ∨
        Unreported t calls p ∧ t.get? p = some (.file content) := by
  -- the first call is taken off: its tree is where the rest starts, and only if the rest reports
  -- nothing at the place does it matter what the first call did there
  induction calls generalizing t with
  | nil => simp [LastReport, Unreported]
  | cons c rest ih =>
    rw [treeAfter_cons, ih (c.after t), file_after, unreported_cons]
    simp only [lastReport_cons]
    constructor
    · rintro (⟨d, last, shows⟩ | ⟨others, ⟨reports, shows⟩ | ⟨quiet, before⟩⟩)
      · exact .inl ⟨d, .inl last, shows⟩
      · exact .inl ⟨c, .inr ⟨rfl, reports, others⟩, shows⟩
      · exact .inr ⟨⟨quiet, others⟩, before⟩
    · rintro (⟨d, last | ⟨rfl, reports, others⟩, shows⟩ | ⟨⟨quiet, others⟩, before⟩)
      · exact .inl ⟨d, last, shows⟩
      · exact .inr ⟨others, .inl ⟨reports, shows⟩⟩
      · exact .inr ⟨others, .inr ⟨quiet, before⟩⟩

private theorem file_stays_run (calls : List GenerateCall) {t : FileTree}
    (here : t.get? p = some (.file content)) :
    ∃ content', (treeAfter t calls).get? p = some (.file content') := by
  induction calls generalizing t content with
  | nil => exact ⟨content, here⟩
  | cons c rest ih =>
    obtain ⟨next, there⟩ := (c.outcome t).file_stays here
    exact ih there

private theorem file_untouched_run {calls : List GenerateCall} {t : FileTree} (rooted : t.Rooted)
    (careful : ∀ before c later, calls = before ++ c :: later → c.Careful (treeAfter t before))
    (here : t.get? p = some (.file content)) :
    (treeAfter t calls).get? p = some (.file content) := by
  induction calls generalizing t with
  | nil => exact here
  | cons c rest ih =>
    have first : c.Careful t := careful [] c rest rfl
    have outcome := c.outcome t
    refine ih (outcome.rooted rooted) ?_ (outcome.file_untouched rooted first.1 first.2 here)
    intro before d later split
    exact careful (c :: before) d later (by rw [split]; rfl)

/-- Over a run of calls, whatever they are asked to write and whether they fail: a file holds what
the last call that reported it shows, and otherwise what it held at first; no file that stood at
some point is gone at the end; a call that keeps what is there reports nothing written where it
finds something; and a run of such calls alters no file, as long as their paths go up only out of
directories that are there. -/
theorem runs_lose_nothing (t : FileTree) (calls : List GenerateCall) :
    (∀ p content, (treeAfter t calls).get? p = some (.file content) ↔
      (∃ c, LastReport t calls p c ∧ c.Shows content) ∨
        Unreported t calls p ∧ t.get? p = some (.file content)) ∧
    (∀ before later p content, calls = before ++ later →
      (treeAfter t before).get? p = some (.file content) →
        ∃ content', (treeAfter t calls).get? p = some (.file content')) ∧
    (∀ before c later, calls = before ++ c :: later → c.generator.overwrite = .ifMissing →
      (treeAfter t before).exists? c.path = true →
        ∃ r, c.result (treeAfter t before) = .ok r ∧ r.written = []) ∧
    (t.Rooted →
      (∀ before c later, calls = before ++ c :: later → c.Careful (treeAfter t before)) →
        ∀ p content, t.get? p = some (.file content) →
          (treeAfter t calls).get? p = some (.file content)) := by
  refine ⟨file_after_run calls t, ?_, ?_, ?_⟩
  · intro before later p content split here
    rw [split, treeAfter_append]
    exact file_stays_run later here
  · intro before c later _ rule there
    have outcome := c.outcome (treeAfter t before)
    generalize c.result (treeAfter t before) = r at outcome ⊢
    generalize c.after (treeAfter t before) = u at outcome
    have due : ¬ c.generator.Due c.directory (treeAfter t before) := by
      intro due
      have missing := due rule
      rw [path] at there
      rw [there] at missing
      cases missing
    cases outcome with
    | kept _ _ => exact ⟨_, rfl, rfl⟩
    | refused yes _ => exact absurd yes due
    | written yes _ _ => exact absurd yes due
    | failed yes _ _ => exact absurd yes due
  · intro rooted careful p content here
    exact file_untouched_run rooted careful here

def greeterBelow (directory : String) : GenerateCall where
  generator := {
    spec := ⟨{ name := "Greeter" }, rfl⟩
    validator := fun _ => .valid
    overwrite := .ifMissing }
  directory := directory

def keptGreeter : FileTree where
  entries := [(["greeter.rb"], .file (Text.bytes "kept"))]

private theorem filePath_greeterBelow (directory : String) :
    (greeterBelow directory).generator.spec.filePath = "greeter.rb" := by
  exact (by decide +kernel : ({ name := "Greeter" } : ClassOutline String).filePath = "greeter.rb")

private theorem rooted_keptGreeter : keptGreeter.Rooted := by
  intro p name e here
  simp only [keptGreeter, FileTree.get?] at here
  rw [if_neg (by simp)] at here
  cases p with
  | nil => rfl
  | cons first rest => simp at here

theorem runs_lose_nothing_greeter :
    (∃ r, (greeterBelow "").result keptGreeter = .ok r ∧ r.written = []) ∧
    (∃ content', (treeAfter keptGreeter [greeterBelow "", greeterBelow "new"]).get?
      ["greeter.rb"] = some (.file content')) ∧
    (treeAfter keptGreeter [greeterBelow "", greeterBelow "new"]).get? ["greeter.rb"] =
      some (.file (Text.bytes "kept")) := by
  have paths : ∀ directory, (greeterBelow directory).path = Files.join directory "greeter.rb" := by
    intro directory
    rw [path, Generator.pathIn, filePath_greeterBelow]
    rfl
  have here : keptGreeter.get? ["greeter.rb"] = some (.file (Text.bytes "kept")) := rfl
  have all := runs_lose_nothing keptGreeter [greeterBelow "", greeterBelow "new"]
  refine ⟨?_, ?_, ?_⟩
  · exact all.2.2.1 [] _ _ rfl rfl (by rw [paths]; decide)
  · exact all.2.1 [] _ _ _ rfl here
  · refine all.2.2.2 rooted_keptGreeter ?_ _ _ here
    intro before c later split
    have mem : c ∈ [greeterBelow "", greeterBelow "new"] := by simp [split]
    rcases List.mem_pair.mp mem with rfl | rfl
    · exact ⟨rfl, FileTree.climbsSeen_of_notMem (by rw [paths]; decide) _ _⟩
    · exact ⟨rfl, FileTree.climbsSeen_of_notMem (by rw [paths]; decide) _ _⟩

/-- A class whose path goes into a directory of its name and up again. In a document, what stands
behind the constant is a comment. -/
def greeterDetour : GenerateCall where
  generator := {
    spec := ⟨{ name := "Greeter #/../greeter" }, rfl⟩
    validator := fun _ => .valid
    overwrite := .ifMissing }
  directory := ""

private theorem filePath_greeterDetour :
    greeterDetour.generator.spec.filePath = "greeter #/../greeter.rb" := by
  exact (by decide +kernel : ({ name := "Greeter #/../greeter" } : ClassOutline String).filePath =
    "greeter #/../greeter.rb")

/-- A path that goes up out of a directory that is missing finds nothing, and once the directory
has been made it leads to a file that was there: the file is lost. -/
theorem ifMissing_overwrites_behind_missing_directory :
    keptGreeter.Rooted ∧ greeterDetour.generator.overwrite = .ifMissing ∧
      (∃ r, greeterDetour.result keptGreeter = .ok r ∧
        r.written = ["greeter #/../greeter.rb"]) ∧
      keptGreeter.get? ["greeter.rb"] = some (.file (Text.bytes "kept")) ∧
      (treeAfter keptGreeter [greeterDetour]).get? ["greeter.rb"] ≠
        some (.file (Text.bytes "kept")) := by
  have written : greeterDetour.result keptGreeter =
      .ok { written := ["greeter #/../greeter.rb"] } := by
    rw [result, Generator.generate, filePath_greeterDetour, Generator.content_eq]
    rfl
  have other : ¬ greeterDetour.Shows (Text.bytes "kept") := by
    rintro ⟨text, shown, same⟩
    have document : greeterDetour.generator.document =
        "# frozen_string_literal: true\n\nclass Greeter #/../greeter\nend\n" := by
      rw [Generator.document, Code.document_eq_layout]
      decide +kernel
    rw [Generator.preview_of_accepted rfl, document] at shown
    cases shown
    exact absurd same (by decide)
  have reports : greeterDetour.Reports keptGreeter ["greeter.rb"] := by
    refine ⟨?_, _, written, by simp⟩
    rw [path, Generator.pathIn, filePath_greeterDetour]
    rfl
  refine ⟨rooted_keptGreeter, rfl, ⟨_, written, rfl⟩, rfl, ?_⟩
  simp [file_after, reports, other]

end GenerateCall

end RubyScaffold
