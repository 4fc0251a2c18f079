import RubyScaffold.Proofs.Layout.Levels

/-!
Code inside modules. The modules are put around it from the innermost one outward, and on the page
they open from the outermost one inward, one level deeper each, and close in the opposite order.
-/

set_option autoImplicit false

namespace RubyScaffold.Layout

private theorem inScopes_eq_foldl (scopes : List String) (body : List Fragment) :
    inScopes scopes body =
      scopes.reverse.foldl
        (fun inner scope => [.block ("module " ++ scope) inner (some "end")]) body := by
  rw [inScopes, List.foldl_reverse]

private theorem inScopes_append (outer inner : List String) (body : List Fragment) :
    inScopes (outer ++ inner) body = inScopes outer (inScopes inner body) := by
  simp only [inScopes, List.foldr_append]

private theorem printAt_inScopes (level : Nat) (scopes : List String) (body : List Fragment) :
    printAt level (inScopes scopes body) =
      ofRows (scopes.mapIdx fun i scope => indentation (level + i) ++ ("module " ++ scope)) ++
        printAt (level + scopes.length) body ++
        ofRows ((List.range scopes.length).reverse.map fun i =>
          indentation (level + i) ++ "end") := by
  have opening : ∀ i scope, row (level + i) ("module " ++ scope) =
      indentation (level + i) ++ ("module " ++ scope) :=
    fun i scope => row_of_visible _ (by decide)
  have closing : ∀ i, row (level + i) "end" = indentation (level + i) ++ "end" :=
    fun i => row_of_visible _ (s := "end") (t := "") (by decide)
  simp only [printAt_eq, rowsOf_inScopes, opening, closing, ofRows_append]

/-- Putting a block around fragments for each scope, from the innermost one outward, is the same as
opening a module for each scope from the outermost one inward: at every level the text is the lines
that open the modules, each two spaces deeper, the text of the fragments inside all of them, and the
lines that close the modules, in the opposite order. Scopes can be put around in parts. -/
theorem inScopes_outside_in (level : Nat) (scopes : List String) (body : List Fragment) :
    inScopes scopes body =
      scopes.reverse.foldl
        (fun inner scope => [.block ("module " ++ scope) inner (some "end")]) body ∧
    printAt level (inScopes scopes body) =
      ofRows (scopes.mapIdx fun i scope => indentation (level + i) ++ ("module " ++ scope)) ++
        printAt (level + scopes.length) body ++
        ofRows ((List.range scopes.length).reverse.map fun i =>
          indentation (level + i) ++ "end") ∧
    ∀ outer inner : List String,
      inScopes (outer ++ inner) body = inScopes outer (inScopes inner body) :=
  ⟨inScopes_eq_foldl scopes body, printAt_inScopes level scopes body,
    fun outer inner => inScopes_append outer inner body⟩

end RubyScaffold.Layout
