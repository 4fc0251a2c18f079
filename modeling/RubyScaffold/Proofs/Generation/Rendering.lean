import RubyScaffold.Renderer

/-!
Runs of a renderer that renders classes and changes its settings in between. Its validator is asked
about every document once and about nothing else, and what the run answers is the validator's
verdict on that very document.
-/

set_option autoImplicit false

namespace RubyScaffold

inductive RenderStep where
  | render (spec : ClassSpec)
  | withSettings (settings : Settings)

namespace RenderStep

def settings? : RenderStep → Option Settings
  | .render _ => none
  | .withSettings settings => some settings

/-- The settings in force after some steps: the last ones that a step put in force, and otherwise
those from before. -/
def inForce (settings : Settings) (steps : List RenderStep) : Settings :=
  (steps.filterMap settings?).getLastD settings

end RenderStep

/-- A validator that writes down what it is asked about. -/
def Validator.recording (judge : String → Report) : Validator (StateM (List String)) :=
  fun document => do
    modify (· ++ [document])
    pure (judge document)

abbrev RenderAnswer := Except RenderError String

def Report.answer (report : Report) (document : String) : RenderAnswer :=
  if report.ok then .ok document else .error (.rejected document report.diagnostic)

namespace Renderer

section Runs

variable {m : Type → Type} [Monad m]

/-- One step of a renderer: its answer, if a class is to be rendered, and the renderer to go on
with. -/
def perform (r : Renderer m) : RenderStep → m (Option RenderAnswer × Renderer m)
  | .render spec => do
    let answer ← r.render spec
    pure (some answer, r)
  | .withSettings settings => pure (none, r.withSettings settings)

def run (r : Renderer m) : List RenderStep → m (List (Option RenderAnswer))
  | [] => pure []
  | step :: rest => do
    let (answer, r) ← r.perform step
    let answers ← r.run rest
    pure (answer :: answers)

end Runs

/-- What a run shows: the answer to each step, and the documents that the validator was asked
about, in order. -/
structure Transcript where
  answers : List (Option RenderAnswer)
  consulted : List String

def transcript (settings : Settings) (judge : String → Report) (steps : List RenderStep) :
    Transcript :=
  let r : Renderer (StateM (List String)) := ⟨settings, .recording judge⟩
  let (answers, consulted) := (r.run steps).run []
  ⟨answers, consulted⟩

variable (settings : Settings) (judge : String → Report)

open RenderStep (inForce)

private theorem inForce_render (spec : ClassSpec) (rest : List RenderStep) :
    inForce settings (.render spec :: rest) = inForce settings rest := rfl

private theorem inForce_withSettings (changed : Settings) (rest : List RenderStep) :
    inForce settings (.withSettings changed :: rest) = inForce changed rest := by
  have first : (RenderStep.withSettings changed).settings? = some changed := rfl
  rw [inForce, List.filterMap_cons_some first, List.getLastD_cons, inForce]

/-- The documents that steps render, each under the settings in force. -/
def documents : Settings → List RenderStep → List String
  | _, [] => []
  | s, .render spec :: rest => spec.document s :: documents s rest
  | _, .withSettings s :: rest => documents s rest

def answers (judge : String → Report) : Settings → List RenderStep → List (Option RenderAnswer)
  | _, [] => []
  | s, .render spec :: rest =>
    some ((judge (spec.document s)).answer (spec.document s)) :: answers judge s rest
  | _, .withSettings s :: rest => none :: answers judge s rest

private theorem documents_append (before later : List RenderStep) :
    documents settings (before ++ later) =
      documents settings before ++ documents (inForce settings before) later := by
  induction before generalizing settings with
  | nil => rfl
  | cons step rest ih =>
    cases step with
    | render spec => rw [List.cons_append, documents, ih, documents, inForce_render]; rfl
    | withSettings s => rw [List.cons_append, documents, ih, documents, inForce_withSettings]

private theorem answers_append (before later : List RenderStep) :
    answers judge settings (before ++ later) =
      answers judge settings before ++ answers judge (inForce settings before) later := by
  induction before generalizing settings with
  | nil => rfl
  | cons step rest ih =>
    cases step with
    | render spec => rw [List.cons_append, answers, ih, answers, inForce_render]; rfl
    | withSettings s => rw [List.cons_append, answers, ih, answers, inForce_withSettings]; rfl

private theorem length_answers (steps : List RenderStep) :
    (answers judge settings steps).length = steps.length := by
  induction steps generalizing settings with
  | nil => rfl
  | cons step rest ih =>
    cases step with
    | render spec => simp [answers, ih]
    | withSettings s => simp [answers, ih]

private theorem render_eq {m : Type → Type} [Monad m] [LawfulMonad m] (r : Renderer m)
    (spec : ClassSpec) : r.render spec =
      (fun report => report.answer (spec.document r.settings)) <$>
        r.validator (spec.document r.settings) := by
  rw [render, map_eq_pure_bind]
  refine bind_congr fun report => ?_
  unfold Report.answer
  split <;> rfl

private theorem render_recording (spec : ClassSpec) (seen : List String) :
    ((⟨settings, .recording judge⟩ : Renderer (StateM (List String))).render spec).run seen =
      pure ((judge (spec.document settings)).answer (spec.document settings),
        seen ++ [spec.document settings]) := by
  rw [render_eq]
  rfl

/-- A renderer asks its validator about the documents of the classes it renders, in their order. -/
private theorem run_recording (steps : List RenderStep) (seen : List String) :
    ((⟨settings, .recording judge⟩ : Renderer (StateM (List String))).run steps).run seen =
      pure (answers judge settings steps, seen ++ documents settings steps) := by
  induction steps generalizing settings seen with
  | nil => simp [run, answers, documents]
  | cons step rest ih =>
    cases step with
    | render spec =>
      simp [run, perform, answers, documents, render_recording, ih]
    | withSettings s =>
      simp [run, perform, answers, documents, withSettings, ih]

private theorem transcript_eq (steps : List RenderStep) :
    transcript settings judge steps = ⟨answers judge settings steps, documents settings steps⟩ := by
  rw [transcript, run_recording]
  rfl

private theorem run_plain (steps : List RenderStep) :
    (⟨settings, judge⟩ : Renderer Id).run steps = pure (answers judge settings steps) := by
  induction steps generalizing settings with
  | nil => rfl
  | cons step rest ih =>
    cases step with
    | render spec =>
      have one : (⟨settings, judge⟩ : Renderer Id).render spec =
          pure ((judge (spec.document settings)).answer (spec.document settings)) := by
        rw [render_eq]
        rfl
      simp [run, perform, answers, one, ih]
    | withSettings s => simp [run, perform, answers, withSettings, ih]

/-- In every run, a class that is rendered has the validator consulted once, on its document under
the settings last put in force, and the verdict on it decides the answer; a change of settings has
it consulted about nothing. What the validator says decides no document, and being watched changes
no answer. -/
theorem consults_once_per_render (before later : List RenderStep) :
    (∀ spec : ClassSpec,
      let document := spec.document (inForce settings before)
      let whole := transcript settings judge (before ++ .render spec :: later)
      whole.consulted = (transcript settings judge before).consulted ++
        document :: (transcript (inForce settings before) judge later).consulted ∧
      whole.answers[before.length]? = some (some (
        if (judge document).ok then .ok document
        else .error (.rejected document (judge document).diagnostic)))) ∧
    (∀ changed : Settings,
      let whole := transcript settings judge (before ++ .withSettings changed :: later)
      whole.consulted = (transcript settings judge before).consulted ++
        (transcript changed judge later).consulted ∧
      whole.answers[before.length]? = some none) ∧
    (∀ judge' : String → Report, (transcript settings judge' before).consulted =
      (transcript settings judge before).consulted) ∧
    (⟨settings, judge⟩ : Renderer Id).run before = (transcript settings judge before).answers := by
  simp only [transcript_eq, documents_append, answers_append, run_plain]
  refine ⟨fun spec => ⟨rfl, ?_⟩, fun changed => ⟨rfl, ?_⟩, fun _ => trivial, rfl⟩
  · simp [length_answers, answers, Report.answer]
  · simp [length_answers, answers]

end Renderer

end RubyScaffold
