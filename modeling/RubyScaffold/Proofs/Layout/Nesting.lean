import RubyScaffold.Proofs.Layout.Rows
import RubyScaffold.Proofs.Text.Joins

/-!
Code as a flat run of lines, some of which open and close blocks. A line stands behind two spaces
for every block that is open around it; laying out fragments whose blocks are all closed is the same
as counting the open blocks from line to line.
-/

set_option autoImplicit false

namespace RubyScaffold.Layout

/-- A line of code before it is indented: it opens a block, closes the innermost open one, or stands
inside and may be empty. -/
inductive Line where
  | opening (text : String)
  | closing (text : String)
  | inner (text : String)

def Line.text : Line → String
  | .opening text | .closing text | .inner text => text

/-- A line inside some open blocks as it stands in a file: behind two spaces for each of them, and
empty if it shows nothing. -/
def placed (depth : Nat) (text : String) : String :=
  if Unicode.isBlankText text then "" else String.ofList (List.replicate (2 * depth) ' ') ++ text

/-- Whether lines that start inside some open blocks stand in rows as they should, each behind two
spaces for every block around it, and how many blocks are open behind them. The line that opens a
block and the one that closes it stand outside of it. -/
inductive Nested : Nat → List Line → List String → Nat → Prop
  | nil {depth : Nat} : Nested depth [] [] depth
  | opening {depth after : Nat} {text : String} {lines : List Line} {rows : List String} :
      Nested (depth + 1) lines rows after →
      Nested depth (.opening text :: lines) (placed depth text :: rows) after
  | closing {depth after : Nat} {text : String} {lines : List Line} {rows : List String} :
      Nested depth lines rows after →
      Nested (depth + 1) (.closing text :: lines) (placed depth text :: rows) after
  | inner {depth after : Nat} {text : String} {lines : List Line} {rows : List String} :
      Nested depth lines rows after →
      Nested depth (.inner text :: lines) (placed depth text :: rows) after

mutual

def Fragment.lines : Fragment → List Line
  | .line text => [.inner text]
  | .blank => [.inner ""]
  | .comment text => [.inner ("# " ++ text)]
  | .block header body close =>
    .opening header :: (linesOf body ++ (close.map Line.closing).toList)

def linesOf : List Fragment → List Line
  | [] => []
  | f :: fs => f.lines ++ linesOf fs

end

/-- A fragment whose lines are all of one kind and whose blocks are all closed. -/
inductive Fragment.Made (kind : Line → Prop) : Fragment → Prop
  | line {text : String} : kind (.inner text) → Made kind (.line text)
  | blank : kind (.inner "") → Made kind .blank
  | comment {text : String} : kind (.inner ("# " ++ text)) → Made kind (.comment text)
  | block {header close : String} {body : List Fragment} :
      kind (.opening header) → (∀ f ∈ body, Made kind f) → kind (.closing close) →
      Made kind (.block header body (some close))

variable {kind : Line → Prop} {depth after : Nat} {lines : List Line} {rows : List String}

namespace Nested

private theorem append {next : Nat} {lines' : List Line} {rows' : List String}
    (front : Nested depth lines rows next) (back : Nested next lines' rows' after) :
    Nested depth (lines ++ lines') (rows ++ rows') after := by
  induction front with
  | nil => exact back
  | opening _ ih => exact .opening (ih back)
  | closing _ ih => exact .closing (ih back)
  | inner _ ih => exact .inner (ih back)

theorem exists_line (nested : Nested depth lines rows after) :
    ∀ r ∈ rows, ∃ line ∈ lines, ∃ level, r = placed level line.text := by
  induction nested with
  | nil => simp
  | opening _ ih | closing _ ih | inner _ ih =>
    intro r mem
    rcases List.mem_cons.mp mem with rfl | mem
    · exact ⟨_, List.mem_cons_self, _, rfl⟩
    · obtain ⟨line, memLine, own⟩ := ih r mem
      exact ⟨line, List.mem_cons_of_mem _ memLine, own⟩

end Nested

theorem row_eq_placed (depth : Nat) (text : String) : row depth text = placed depth text :=
  rfl

private theorem placed_empty (depth : Nat) : placed depth "" = "" := by
  have blank : Unicode.isBlankText "" = true := by decide
  simp [placed, blank]

namespace Fragment.Made

private theorem nested_of_each {fs : List Fragment}
    (each : ∀ f ∈ fs, ∀ depth, Nested depth f.lines (f.rows depth) depth) (depth : Nat) :
    Nested depth (linesOf fs) (rowsOf depth fs) depth := by
  induction fs with
  | nil => exact .nil
  | cons f fs ih =>
    have rest := ih fun g mem => each g (List.mem_cons_of_mem _ mem)
    rw [linesOf, rowsOf]
    exact (each f List.mem_cons_self depth).append rest

private theorem nested {f : Fragment} (made : f.Made kind) :
    ∀ depth, Nested depth f.lines (f.rows depth) depth := by
  induction made with
  | line _ | comment _ =>
    intro depth
    rw [Fragment.lines, Fragment.rows, row_eq_placed]
    exact .inner .nil
  | blank _ =>
    intro depth
    have only : Nested depth [.inner ""] [placed depth ""] depth := .inner .nil
    rwa [placed_empty] at only
  | block _ _ _ ih =>
    intro depth
    simp only [Fragment.lines, Fragment.rows, row_eq_placed, Option.map_some]
    exact .opening ((nested_of_each ih (depth + 1)).append (.closing .nil))

theorem nested_list {fs : List Fragment} (made : ∀ f ∈ fs, f.Made kind) (depth : Nat) :
    Nested depth (linesOf fs) (rowsOf depth fs) depth :=
  nested_of_each (fun f mem => (made f mem).nested) depth

private theorem kind_of_each {fs : List Fragment} (each : ∀ f ∈ fs, ∀ line ∈ f.lines, kind line) :
    ∀ line ∈ linesOf fs, kind line := by
  induction fs with
  | nil => simp [linesOf]
  | cons f fs ih =>
    intro line mem
    rw [linesOf] at mem
    rcases List.mem_append.mp mem with mem | mem
    · exact each f List.mem_cons_self line mem
    · exact ih (fun g later => each g (List.mem_cons_of_mem _ later)) line mem

private theorem kind_of_mem {f : Fragment} (made : f.Made kind) : ∀ line ∈ f.lines, kind line := by
  induction made with
  | line own | comment own | blank own => simpa [Fragment.lines] using own
  | block opens _ closes ih =>
    intro line mem
    rw [Fragment.lines] at mem
    rcases List.mem_cons.mp mem with rfl | mem
    · exact opens
    · rcases List.mem_append.mp mem with mem | mem
      · exact kind_of_each ih line mem
      · obtain rfl : line = _ := by simpa using mem
        exact closes

theorem kind_of_mem_list {fs : List Fragment} (made : ∀ f ∈ fs, f.Made kind) :
    ∀ line ∈ linesOf fs, kind line :=
  kind_of_each fun f mem => (made f mem).kind_of_mem

theorem separated {sections : List (List Fragment)} (empty : kind (.inner ""))
    (made : ∀ part ∈ sections, ∀ f ∈ part, f.Made kind) :
    ∀ f ∈ Layout.separated sections, f.Made kind := by
  intro f mem
  rw [separated_eq_intercalate] at mem
  rcases Text.mem_intercalate mem with rfl | ⟨part, memPart, inside⟩
  · exact .blank empty
  · exact made part (List.mem_of_mem_filter memPart) f inside

theorem inScopes {scopes : List String} {body : List Fragment}
    (opens : ∀ scope ∈ scopes, kind (.opening ("module " ++ scope))) (closes : kind (.closing "end"))
    (made : ∀ f ∈ body, f.Made kind) : ∀ f ∈ Layout.inScopes scopes body, f.Made kind := by
  induction scopes with
  | nil => exact made
  | cons scope scopes ih =>
    intro f mem
    have inside := ih fun other later => opens other (List.mem_cons_of_mem _ later)
    obtain rfl : f = .block ("module " ++ scope) (Layout.inScopes scopes body) (some "end") := by
      simpa [Layout.inScopes] using mem
    exact .block (opens scope List.mem_cons_self) inside closes

end Fragment.Made

end RubyScaffold.Layout
