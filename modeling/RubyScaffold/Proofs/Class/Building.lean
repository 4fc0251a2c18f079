import RubyScaffold.Manifest.Basic
import RubyScaffold.Proofs.OrderedMap

/-!
Describing a class step by step. Steps of one kind count in their order and steps of different kinds
do not disturb each other, so the outline is known from what the steps supply of each kind. Steps
that supply what a manifest says give the class of the manifest, or refuse it for the same fault.
-/

set_option autoImplicit false

namespace RubyScaffold

/-- What steps supply of each kind: the parents they name, what they add to the lists, and what
they write into the maps. -/
structure Supply where
  parents : List String := []
  scopes : List String := []
  includes : List String := []
  requires : List String := []
  relativeRequires : List String := []
  fields : List String := []
  methods : List (String × Option (List String)) := []
  topContents : List String := []
  directives : List (String × String) := []

namespace Supply

def append (s t : Supply) : Supply where
  parents := s.parents ++ t.parents
  scopes := s.scopes ++ t.scopes
  includes := s.includes ++ t.includes
  requires := s.requires ++ t.requires
  relativeRequires := s.relativeRequires ++ t.relativeRequires
  fields := s.fields ++ t.fields
  methods := s.methods ++ t.methods
  topContents := s.topContents ++ t.topContents
  directives := s.directives ++ t.directives

def ofStep : ClassStep → Supply
  | .parent name => { parents := [name] }
  | .scopes names => { scopes := names }
  | .includes name => { includes := [name] }
  | .requires path => { requires := [path] }
  | .requiresRelative path => { relativeRequires := [path] }
  | .fields names => { fields := names }
  | .method name params => { methods := [(name, some params)] }
  | .methodWithoutParams name => { methods := [(name, none)] }
  | .topContent text => { topContents := [text] }
  | .directive key value => { directives := [(key, value)] }

def ofSteps : List ClassStep → Supply
  | [] => {}
  | step :: steps => (ofStep step).append (ofSteps steps)

/-- What it takes to describe the class of a manifest; the values of the directives are supplied in
their text form. -/
def ofClass (c : ManifestClass) : Supply where
  parents := c.parent.toList
  scopes := c.scopes
  includes := c.includes
  requires := c.requires
  relativeRequires := c.relativeRequires
  fields := c.fields
  methods := c.methods.entries
  topContents := c.topContents
  directives := c.directives.entries.map fun d => (d.1, d.2.display)

/-- An outline with a supply added: the last parent counts, lists grow at their ends and maps are
written. -/
def addTo (s : Supply) (c : ClassOutline String) : ClassOutline String where
  name := c.name
  parent := s.parents.getLast?.or c.parent
  scopes := c.scopes ++ s.scopes
  includes := c.includes ++ s.includes
  requires := c.requires ++ s.requires
  relativeRequires := c.relativeRequires ++ s.relativeRequires
  fields := c.fields ++ s.fields
  methods := s.methods.foldl (fun m w => m.insert w.1 w.2) c.methods
  topContents := c.topContents ++ s.topContents
  directives := s.directives.foldl (fun m w => m.insert w.1 w.2) c.directives

private theorem addTo_append (s t : Supply) (c : ClassOutline String) :
    (s.append t).addTo c = t.addTo (s.addTo c) := by
  simp only [addTo, append, List.append_assoc, List.foldl_append, List.getLast?_append,
    Option.or_assoc]

private theorem apply_eq_addTo (c : ClassOutline String) (step : ClassStep) :
    step.apply c = (ofStep step).addTo c := by
  cases step <;> simp [ClassStep.apply, ofStep, addTo]

/-- A run of steps adds what its steps supply of each kind, however the kinds are mixed. -/
theorem foldl_apply_eq_addTo (c : ClassOutline String) (steps : List ClassStep) :
    steps.foldl ClassStep.apply c = (ofSteps steps).addTo c := by
  induction steps generalizing c with
  | nil => simp [ofSteps, addTo]
  | cons step steps ih => rw [List.foldl_cons, ih, ofSteps, addTo_append, apply_eq_addTo]

private theorem addTo_ofClass (c : ManifestClass) :
    (ofClass c).addTo { name := c.name } = c.displayed := by
  have parent : c.parent.toList.getLast?.or none = c.parent := by cases c.parent <;> rfl
  have methods : c.methods.entries.foldl (fun m w => m.insert w.1 w.2) .empty = c.methods :=
    c.methods.ofList_entries
  have directives : (c.directives.entries.map fun d => (d.1, d.2.display)).foldl
      (fun m w => m.insert w.1 w.2) .empty = c.directives.mapValues DirectiveValue.display :=
    (c.directives.mapValues DirectiveValue.display).ofList_entries
  simp [addTo, ofClass, parent, methods, directives, ClassOutline.displayed,
    ClassOutline.mapDirectives]

end Supply

/-- Steps that supply all that a manifest says of a class, in whatever order they mix its kinds,
describe the class that is taken from the manifest: the checks give the same class, or the same
fault. -/
theorem ClassOutline.check_ofSteps (c : ManifestClass) (steps : List ClassStep)
    (supplied : Supply.ofSteps steps = Supply.ofClass c) :
    (ofSteps c.name steps).check = c.toSpec := by
  have outline : ofSteps c.name steps = c.displayed := by
    rw [ofSteps, Supply.foldl_apply_eq_addTo, supplied, Supply.addTo_ofClass]
  rw [outline, toSpec]

def teapotClass : ManifestClass where
  name := "Teapot"
  parent := some "Vessel"
  scopes := ["Kitchen", "Stove"]
  includes := ["Heated"]
  requires := ["leaf"]
  relativeRequires := ["water"]
  fields := ["@lid", "@spout"]
  methods := .ofList [("pour", some ["cup"]), ("boil", none), ("rest", some [])]
  topContents := ["warms :cup"]
  directives := .ofList [("warm", .bool true), ("cups", .integer 4), ("note", .text "4")]

/-- Steps for the class, with its kinds mixed and its lists cut into pieces. -/
def teapotSteps : List ClassStep :=
  [.fields ["@lid"], .method "pour" ["cup"], .directive "warm" "true", .scopes ["Kitchen"],
    .topContent "warms :cup", .methodWithoutParams "boil", .scopes [], .requiresRelative "water",
    .fields ["@spout"], .directive "cups" "4", .parent "Vessel", .method "rest" [],
    .scopes ["Stove"], .includes "Heated", .directive "note" "4", .requires "leaf"]

theorem check_ofSteps_teapot :
    Supply.ofSteps teapotSteps = Supply.ofClass teapotClass ∧
      (ClassOutline.ofSteps teapotClass.name teapotSteps).check = teapotClass.toSpec := by
  have supplied : Supply.ofSteps teapotSteps = Supply.ofClass teapotClass := by rfl
  exact ⟨supplied, ClassOutline.check_ofSteps teapotClass teapotSteps supplied⟩

end RubyScaffold
