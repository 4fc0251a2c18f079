import RubyScaffold.Generator

/-!
Where generators come from: a class, or a manifest with settings of its own. Until other choices are
made, their documents go to the validator at hand and a file that is there is written anew.
-/

set_option autoImplicit false

namespace RubyScaffold

inductive GeneratorSource where
  | cls (spec : ClassSpec)
  | manifest (m : Manifest)

namespace GeneratorSource

def generator (validator : String → Report) : GeneratorSource → Except ClassFault Generator
  | .cls spec => .ok { spec := spec, validator := validator }
  | .manifest m => Generator.ofManifest validator m

end GeneratorSource

end RubyScaffold
