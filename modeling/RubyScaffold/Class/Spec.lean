import RubyScaffold.Class.Fault

/-!
Classes fit to be generated, and the step by step way to describe one.
-/

set_option autoImplicit false

namespace RubyScaffold

/-- An outline in which nothing is wrong. -/
structure ClassSpec extends ClassOutline String where
  sound : toClassOutline.fault? = none

def ClassOutline.check (c : ClassOutline String) : Except ClassFault ClassSpec :=
  match h : c.fault? with
  | some fault => .error fault
  | none => .ok ⟨c, h⟩

inductive ClassStep where
  | parent (name : String)
  | scopes (names : List String)
  | includes (name : String)
  | requires (path : String)
  | requiresRelative (path : String)
  | fields (names : List String)
  | method (name : String) (params : List String)
  | methodWithoutParams (name : String)
  | topContent (text : String)
  | directive (key value : String)

/-- The outline after one step more. Lists grow at their ends, maps are written, and the last
parent counts. -/
def ClassStep.apply (c : ClassOutline String) : ClassStep → ClassOutline String
  | .parent name => { c with parent := some name }
  | .scopes names => { c with scopes := c.scopes ++ names }
  | .includes name => { c with includes := c.includes ++ [name] }
  | .requires path => { c with requires := c.requires ++ [path] }
  | .requiresRelative path => { c with relativeRequires := c.relativeRequires ++ [path] }
  | .fields names => { c with fields := c.fields ++ names }
  | .method name params => { c with methods := c.methods.insert name (some params) }
  | .methodWithoutParams name => { c with methods := c.methods.insert name none }
  | .topContent text => { c with topContents := c.topContents ++ [text] }
  | .directive key value => { c with directives := c.directives.insert key value }

def ClassOutline.ofSteps (name : String) (steps : List ClassStep) : ClassOutline String :=
  steps.foldl ClassStep.apply { name := name }

end RubyScaffold
