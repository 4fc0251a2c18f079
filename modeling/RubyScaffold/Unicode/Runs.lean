/-!
Sets of characters as runs of code points. A run is two ends, both included; a strided run also
says which multiple of steps from its first end belongs to it.
-/

set_option autoImplicit false

namespace RubyScaffold.Unicode

def inRuns (runs : List (Nat × Nat)) (c : Char) : Bool :=
  runs.any fun r => decide (r.1 ≤ c.toNat) && decide (c.toNat ≤ r.2)

def inStridedRun (first last stride : Nat) (c : Char) : Bool :=
  decide (first ≤ c.toNat) && decide (c.toNat ≤ last) && (c.toNat - first) % stride == 0

def inStridedRuns (runs : List (Nat × Nat × Nat)) (c : Char) : Bool :=
  runs.any fun r => inStridedRun r.1 r.2.1 r.2.2 c

end RubyScaffold.Unicode
