import RubyScaffold.Files.Generated
import RubyScaffold.Manifest.Basic
import RubyScaffold.Renderer

/-!
Generating the file of a class into a tree of files.
-/

set_option autoImplicit false

namespace RubyScaffold

open Files (Overwrite Outcome WriteError FileTree)

structure Generator where
  spec : ClassSpec
  settings : Settings := {}
  validator : String → Report
  overwrite : Overwrite := .always

inductive GeneratorOption where
  | settings (s : Settings)
  | validator (v : String → Report)
  | overwrite (rule : Overwrite)

/-- What a run of a generator did: the paths written and those kept as they were. -/
structure GenerateResult where
  written : List String := []
  skipped : List String := []

namespace Generator

def language : String := "ruby"

def fileExtension : String := "rb"

def renderer (g : Generator) : Renderer Id where
  settings := g.settings
  validator := fun document => pure (g.validator document)

def ofParts (spec : ClassSpec) (r : Renderer Id) (rule : Overwrite) : Generator where
  spec := spec
  settings := r.settings
  validator := fun document => (r.validator document).run
  overwrite := rule

/-- The generator with one choice made anew. Another validator takes another renderer, which goes on
with the settings of the one before. -/
def set (g : Generator) : GeneratorOption → Generator
  | .settings s => ofParts g.spec (g.renderer.withSettings s) g.overwrite
  | .validator v =>
    ofParts g.spec ⟨g.renderer.settings, fun document => pure (v document)⟩ g.overwrite
  | .overwrite rule => { g with overwrite := rule }

def setAll (g : Generator) (options : List GeneratorOption) : Generator :=
  options.foldl set g

def ofManifest (validator : String → Report) (m : Manifest) : Except ClassFault Generator := do
  let spec ← m.cls.toSpec
  .ok { spec := spec, settings := m.settings, validator := validator }

def content (g : Generator) : Except RenderError String :=
  (g.renderer.render g.spec).run

def preview (g : Generator) : Except RenderError (List (String × String)) := do
  let text ← g.content
  .ok [(g.spec.filePath, text)]

def generate (g : Generator) (directory : String) (t : FileTree) :
    Except (WriteError RenderError) GenerateResult × FileTree :=
  let path := g.spec.filePath
  let (r, t) := Files.write g.overwrite (Files.join directory path) g.content t
  (r.map fun outcome => match outcome with
    | .written => { written := [path] }
    | .skipped => { skipped := [path] }, t)

end Generator

end RubyScaffold
