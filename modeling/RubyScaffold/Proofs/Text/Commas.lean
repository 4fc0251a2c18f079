import RubyScaffold.Proofs.Text.Pairs

/-!
Lists of texts written one behind the other with a comma and a blank in between, and taken apart
again at these places.
-/

set_option autoImplicit false

namespace RubyScaffold.Text

/-- The pieces between the commas that a blank follows; there is always at least one. -/
def commaPieces : List Char → List (List Char)
  | [] => [[]]
  | ',' :: ' ' :: rest => [] :: commaPieces rest
  | c :: rest => match commaPieces rest with
    | [] => [[c]]
    | p :: ps => (c :: p) :: ps

def commaParts (s : String) : List String :=
  (commaPieces s.toList).map String.ofList

theorem commaPieces_eq (cs : List Char) : commaPieces cs = pairPieces ',' ' ' cs := by
  fun_induction commaPieces cs with
  | case1 => rfl
  | case2 rest ih => rw [pairPieces, if_pos ⟨rfl, rfl⟩, ih]
  | case3 c rest single found ih => rw [pairPieces_cons single, ← ih, found]
  | case4 c rest single p ps found ih => rw [pairPieces_cons single, ← ih, found]

theorem commaParts_intercalate {xs : List String} (some : xs ≠ [])
    (free : ∀ x ∈ xs, ',' ∉ x.toList) : commaParts (String.intercalate ", " xs) = xs := by
  have text : (String.intercalate ", " xs).toList = [',', ' '].intercalate (xs.map String.toList) := by
    simp
  have parts : pairPieces ',' ' ' ([',', ' '].intercalate (xs.map String.toList)) =
      xs.map String.toList :=
    pairPieces_intercalate (by simpa using some) (by simpa using free)
  rw [commaParts, commaPieces_eq, text, parts]
  simp

theorem commaJoin_inj {xs ys : List String} (free : ∀ x ∈ xs, ',' ∉ x.toList)
    (free' : ∀ y ∈ ys, ',' ∉ y.toList) (someX : xs ≠ []) (someY : ys ≠ [])
    (same : String.intercalate ", " xs = String.intercalate ", " ys) : xs = ys := by
  rw [← commaParts_intercalate someX free, same, commaParts_intercalate someY free']

end RubyScaffold.Text
