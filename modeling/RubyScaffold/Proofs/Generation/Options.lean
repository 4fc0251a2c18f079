import RubyScaffold.Generator.Source

/-!
Choices about a generator, made in any number and order. Choices of one kind do not disturb those of
another, and of each kind the last one counts.
-/

set_option autoImplicit false

namespace RubyScaffold

open Files (Overwrite FileTree)

namespace GeneratorOption

def settings? : GeneratorOption → Option Settings
  | .settings s => some s
  | _ => none

def validator? : GeneratorOption → Option (String → Report)
  | .validator v => some v
  | _ => none

def overwrite? : GeneratorOption → Option Overwrite
  | .overwrite rule => some rule
  | _ => none

/-- The last choice of a kind, or what it was to begin with. -/
def last {α : Type} (kind : GeneratorOption → Option α) (options : List GeneratorOption)
    (start : α) : α :=
  (options.filterMap kind).getLastD start

private theorem last_cons {α : Type} (kind : GeneratorOption → Option α) (o : GeneratorOption)
    (options : List GeneratorOption) (start : α) :
    last kind (o :: options) start = last kind options ((kind o).getD start) := by
  cases own : kind o with
  | none => rw [last, List.filterMap_cons_none own, last, Option.getD_none]
  | some a => rw [last, List.filterMap_cons_some own, List.getLastD_cons, last, Option.getD_some]

end GeneratorOption

namespace Generator

open GeneratorOption

private theorem set_eq (g : Generator) (o : GeneratorOption) :
    g.set o = {
      spec := g.spec
      settings := (settings? o).getD g.settings
      validator := (validator? o).getD g.validator
      overwrite := (overwrite? o).getD g.overwrite } := by
  cases o <;> rfl

/-- Choices keep the class, and replace of each kind what was there by the last choice. -/
private theorem setAll_eq (g : Generator) (options : List GeneratorOption) :
    g.setAll options = {
      spec := g.spec
      settings := last settings? options g.settings
      validator := last validator? options g.validator
      overwrite := last overwrite? options g.overwrite } := by
  induction options generalizing g with
  | nil => rfl
  | cons o options ih =>
    have step : g.setAll (o :: options) = (g.set o).setAll options := rfl
    rw [step, ih, set_eq, last_cons, last_cons, last_cons]

end Generator

namespace GeneratorSource

open GeneratorOption

def spec : GeneratorSource → Except ClassFault ClassSpec
  | .cls spec => .ok spec
  | .manifest m => m.cls.toSpec

def settings : GeneratorSource → Settings
  | .cls _ => {}
  | .manifest m => m.settings

/-- The generator of a class that takes from some choices the last of each kind. -/
def chosen (source : GeneratorSource) (validator : String → Report)
    (options : List GeneratorOption) (spec : ClassSpec) : Generator where
  spec := spec
  settings := last settings? options source.settings
  validator := last validator? options validator
  overwrite := last overwrite? options .always

def initial (source : GeneratorSource) (validator : String → Report) (spec : ClassSpec) :
    Generator where
  spec := spec
  settings := source.settings
  validator := validator

private theorem generator_eq (source : GeneratorSource) (validator : String → Report) :
    source.generator validator = source.spec.map (source.initial validator) := by
  cases source with
  | cls spec => rfl
  | manifest m =>
    rw [generator, Generator.ofManifest, spec]
    cases m.cls.toSpec <;> rfl

private theorem setAll_initial (source : GeneratorSource) (validator : String → Report)
    (options : List GeneratorOption) (spec : ClassSpec) :
    (source.initial validator spec).setAll options = source.chosen validator options spec :=
  Generator.setAll_eq _ options

/-- Whatever choices are made about a generator, and in whatever order, it is there for a class or a
manifest in which nothing is wrong, and shows and writes what the generator does that has the last
settings, the last validator and the last rule chosen. What was never chosen is as it was to begin
with: the settings are the default ones or those of the manifest, the validator is the one that the
generator was made with, and a file that is there is written anew. -/
theorem options_independent (source : GeneratorSource) (validator : String → Report)
    (options : List GeneratorOption) :
    ((source.generator validator).map fun g => (g.setAll options).preview) =
      (source.spec.map fun spec => (source.chosen validator options spec).preview) ∧
    ∀ (directory : String) (t : FileTree),
      ((source.generator validator).map fun g => (g.setAll options).generate directory t) =
        source.spec.map fun spec =>
          (source.chosen validator options spec).generate directory t := by
  rw [generator_eq]
  cases source.spec with
  | error fault => exact ⟨rfl, fun _ _ => rfl⟩
  | ok spec => simp only [Except.map, setAll_initial, implies_true, and_self]

end GeneratorSource

end RubyScaffold
