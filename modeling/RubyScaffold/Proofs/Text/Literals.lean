import RubyScaffold.Proofs.Text.Cursors
import RubyScaffold.Tree

/-!
Literals: the texts of a tree as they are written in the text that the tree was read from, between
marks and perhaps with escapes.
-/

set_option autoImplicit false

namespace RubyScaffold

namespace Text

/-- Whether a literal stands for a text: it has characters between marks, and these are the text
unless there is an escape among them. -/
def Spells (marks : List (List Char × List Char)) (literal : List Char) (s : String) : Prop :=
  ∃ lead inner trail, (lead, trail) ∈ marks ∧ literal = lead ++ inner ++ trail ∧
    ('\\' ∉ inner → inner = s.toList)

def Written (marks : List (List Char × List Char)) (text : List Char) (start stop : Nat)
    (s : String) : Prop :=
  ∃ literal, StandsAt text start literal ∧ start + byteLength literal = stop ∧
    Spells marks literal s

/-- Whether a text is read up to the mark that closes it, of which the characters before the cursor
are known, the last first. Without an escape the others are what stands before the mark. -/
def ReadsBody (close : List Char) (c : Cursor) (found cs : List Char) (after : Cursor) : Prop :=
  ∃ inner, c.Reads (inner ++ close) after ∧ ('\\' ∉ inner → cs = found.reverse ++ inner)

section Body

variable {close found cs : List Char} {c d e after : Cursor}

theorem readsBody_close (read : c.Reads close after) :
    ReadsBody close c found found.reverse after :=
  ⟨[], read, fun _ => by simp⟩

theorem ReadsBody.plain {xs : List Char} (body : ReadsBody close d (xs.reverse ++ found) cs after)
    (read : c.Reads xs d) : ReadsBody close c found cs after := by
  obtain ⟨inner, others, same⟩ := body
  refine ⟨xs ++ inner, ?_, fun plain => ?_⟩
  · simpa using read.trans others
  · have later : '\\' ∉ inner := fun mem => plain (List.mem_append_right _ mem)
    simpa using same later

theorem ReadsBody.escaped {known : List Char} (body : ReadsBody close e known cs after)
    (slash : c.Reads ['\\'] d) (own : d.Leads e) : ReadsBody close c found cs after := by
  obtain ⟨inside, second⟩ := own
  obtain ⟨inner, others, -⟩ := body
  refine ⟨'\\' :: inside ++ inner, ?_, fun plain => absurd (by simp) plain⟩
  simpa using (slash.trans second).trans others

theorem ReadsBody.spells {marks : List (List Char × List Char)} {lead : List Char}
    (body : ReadsBody close d [] cs after) (opened : c.Reads lead d)
    (mem : (lead, close) ∈ marks) :
    ∃ literal, c.Reads literal after ∧ Spells marks literal (String.ofList cs) := by
  obtain ⟨inner, others, same⟩ := body
  refine ⟨lead ++ inner ++ close, ?_, lead, inner, close, mem, rfl, fun plain => ?_⟩
  · simpa using opened.trans others
  · simp [same plain]

end Body

theorem Cursor.In.written {marks : List (List Char × List Char)} {text literal : List Char}
    {c after : Cursor} {s : String} (inside : c.In text) (read : c.Reads literal after)
    (spells : Spells marks literal s) : Written marks text c.index after.index s :=
  ⟨literal, inside.standsAt read, read.index.symm, spells⟩

end Text

/-- Whether every text and every key of a tree stands at a place that is right for it, but for
trees of a form that no literal is written for. -/
inductive Tree.Sourced {π φ : Type} (right : π → String → Prop) (made : Tree π φ → Prop) :
    Tree π φ → Prop
  | null {p : π} : Sourced right made (.null p)
  | bool {p : π} {b : Bool} : Sourced right made (.bool p b)
  | integer {p : π} {i : Int} : Sourced right made (.integer p i)
  | float {p : π} {x : Binary64} : Sourced right made (.float p x)
  | skipped {p : π} : Sourced right made (.skipped p)
  | unreadable {p : π} {f : φ} : Sourced right made (.unreadable p f)
  | text {p : π} {s : String} : right p s → Sourced right made (.text p s)
  | list {p : π} {items : List (Tree π φ)} {ending : Option φ} :
      (∀ t ∈ items, t.Sourced right made) → Sourced right made (.list p items ending)
  | table {p : π} {members : List (String × π × Tree π φ)} {ending : Option φ} :
      (∀ m ∈ members, right m.2.1 m.1) → (∀ m ∈ members, m.2.2.Sourced right made) →
      Sourced right made (.table p members ending)
  | made {t : Tree π φ} : made t → Sourced right made t

end RubyScaffold
