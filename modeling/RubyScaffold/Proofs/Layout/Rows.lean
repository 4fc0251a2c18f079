import RubyScaffold.Layout.Page
import RubyScaffold.Proofs.Layout.Joining

/-!
The rows of a page. Laying fragments out at a level appends a list of rows that depends on the
fragments and the level only, so what is known of rows is known of the page.
-/

set_option autoImplicit false

namespace RubyScaffold.Layout

/-- A line as it stands on the page: behind its indentation, and empty if it holds only blanks. -/
def row (level : Nat) (line : String) : String :=
  if Unicode.isBlankText line then "" else indentation level ++ line

def ofRows (rows : List String) : String :=
  String.join (rows.map (· ++ "\n"))

mutual

def Fragment.rows (level : Nat) : Fragment → List String
  | .line text => [row level text]
  | .blank => [""]
  | .comment text => [row level ("# " ++ text)]
  | .block header body close =>
    row level header :: (rowsOf (level + 1) body ++ (close.map (row level)).toList)

def rowsOf (level : Nat) : List Fragment → List String
  | [] => []
  | f :: fs => f.rows level ++ rowsOf level fs

end

@[simp] theorem ofRows_nil : ofRows [] = "" := by simp [ofRows]

@[simp] theorem ofRows_cons (r : String) (rows : List String) :
    ofRows (r :: rows) = r ++ "\n" ++ ofRows rows := by simp [ofRows]

@[simp] theorem ofRows_append (rows more : List String) :
    ofRows (rows ++ more) = ofRows rows ++ ofRows more := by
  induction rows with
  | nil => simp
  | cons r rows ih => simp [ih, String.append_assoc]

private theorem Page.addLine_eq (p : Page) (line : String) :
    p.addLine line = { p with text := p.text ++ ofRows [row p.level line] } := by
  unfold Page.addLine row Page.addBlank
  split <;> simp [String.append_assoc]

mutual

theorem Page.add_eq (p : Page) :
    ∀ f : Fragment, p.add f = { p with text := p.text ++ ofRows (f.rows p.level) }
  | .line text => by simp only [Page.add, Page.addLine_eq, Fragment.rows]
  | .blank => by simp [Page.add, Page.addBlank, Fragment.rows]
  | .comment text => by simp only [Page.add, Page.addLine_eq, Fragment.rows]
  | .block header body close => by
    have inside := Page.addAll_eq (p.addLine header).indent body
    cases close <;>
    · simp only [Page.add, inside]
      simp [Page.addLine_eq, Page.indent, Page.dedent, Fragment.rows, String.append_assoc]

theorem Page.addAll_eq (p : Page) :
    ∀ fs : List Fragment, p.addAll fs = { p with text := p.text ++ ofRows (rowsOf p.level fs) }
  | [] => by simp [Page.addAll, rowsOf]
  | f :: fs => by
    rw [Page.addAll, Page.add_eq p f, Page.addAll_eq _ fs]
    simp [rowsOf, String.append_assoc]

end

theorem print_eq (fragments : List Fragment) : print fragments = ofRows (rowsOf 0 fragments) := by
  simp [print, Page.addAll_eq]

@[simp] theorem rowsOf_append (level : Nat) (fs gs : List Fragment) :
    rowsOf level (fs ++ gs) = rowsOf level fs ++ rowsOf level gs := by
  induction fs with
  | nil => simp [rowsOf]
  | cons f fs ih => simp [rowsOf, ih]

theorem Fragment.rows_ne_nil (level : Nat) (f : Fragment) : f.rows level ≠ [] := by
  cases f <;> simp [Fragment.rows]

theorem isBlankText_append (s t : String) :
    Unicode.isBlankText (s ++ t) = (Unicode.isBlankText s && Unicode.isBlankText t) := by
  simp [Unicode.isBlankText]

theorem row_of_visible (level : Nat) {s t : String} (visible : Unicode.isBlankText s = false) :
    row level (s ++ t) = indentation level ++ (s ++ t) := by
  simp [row, isBlankText_append, visible]

theorem lineFeed_not_mem_row {level : Nat} {line : String} (plain : '\n' ∉ line.toList) :
    '\n' ∉ (row level line).toList := by
  unfold row
  split
  · simp
  · simp [indentation, plain]

theorem rowsOf_lines (level : Nat) (lines : List String) :
    rowsOf level (lines.map .line) = lines.map (row level) := by
  induction lines with
  | nil => rfl
  | cons line lines ih => simp [rowsOf, Fragment.rows, ih]

/-- The rows of fragments inside modules: the modules open one level deeper each, and close in the
opposite order. -/
theorem rowsOf_inScopes (level : Nat) (scopes : List String) (body : List Fragment) :
    rowsOf level (inScopes scopes body) =
      scopes.mapIdx (fun i scope => row (level + i) ("module " ++ scope)) ++
        rowsOf (level + scopes.length) body ++
        (List.range scopes.length).reverse.map fun i => row (level + i) "end" := by
  induction scopes generalizing level with
  | nil => simp [inScopes]
  | cons scope scopes ih =>
    have inner := ih (level + 1)
    simp only [inScopes] at inner
    simp only [inScopes, List.foldr_cons, rowsOf, Fragment.rows, inner]
    simp [List.mapIdx_cons, List.range_succ_eq_map, List.map_reverse, Function.comp_def,
      Nat.add_assoc, Nat.add_comm 1]

private theorem rowsOf_intercalate (level : Nat) (sections : List (List Fragment)) :
    rowsOf level ([.blank].intercalate sections) =
      [""].intercalate (sections.map (rowsOf level)) := by
  induction sections with
  | nil => simp [rowsOf]
  | cons part sections ih =>
    cases sections with
    | nil => simp
    | cons next sections =>
      simp only [List.intercalate_cons_cons, List.map_cons] at ih ⊢
      rw [rowsOf_append, ih]
      simp [rowsOf, Fragment.rows]

theorem rowsOf_separated (level : Nat) (sections : List (List Fragment)) :
    rowsOf level (separated sections) =
      [""].intercalate ((sections.map (rowsOf level)).filter fun rows => !rows.isEmpty) := by
  rw [separated_eq_intercalate, rowsOf_intercalate, List.filter_map]
  have same : ((fun rows : List String => !rows.isEmpty) ∘ rowsOf level) =
      fun part : List Fragment => !part.isEmpty := by
    funext part
    cases part with
    | nil => simp [rowsOf]
    | cons f fs => simp [rowsOf, Fragment.rows_ne_nil]
  rw [same]

end RubyScaffold.Layout
