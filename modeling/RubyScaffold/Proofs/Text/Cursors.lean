import RubyScaffold.Proofs.Text.Search
import RubyScaffold.Text.Cursor

/-!
Cursors that move over a text. What a cursor reads on its way to another stands in the text between
the indices of the two.
-/

set_option autoImplicit false

namespace RubyScaffold.Text.Cursor

/-- Whether a cursor gets to another by reading some characters. -/
structure Reads (c : Cursor) (found : List Char) (after : Cursor) : Prop where
  rest : c.rest = found ++ after.rest
  index : after.index = c.index + byteLength found

def Leads (c after : Cursor) : Prop :=
  ∃ found, c.Reads found after

/-- Whether a cursor stands in a text with its index the number of bytes before it. -/
def In (text : List Char) (c : Cursor) : Prop :=
  (start text).Leads c

variable {c d e after : Cursor} {text xs ys found : List Char}

theorem Reads.refl (c : Cursor) : c.Reads [] c :=
  ⟨rfl, rfl⟩

theorem Reads.trans (first : c.Reads xs d) (second : d.Reads ys e) : c.Reads (xs ++ ys) e :=
  ⟨by rw [first.rest, second.rest, List.append_assoc],
    by rw [second.index, first.index, byteLength_append, Nat.add_assoc]⟩

theorem Reads.leads (read : c.Reads found after) : c.Leads after :=
  ⟨found, read⟩

theorem Leads.refl (c : Cursor) : c.Leads c :=
  (Reads.refl c).leads

theorem Leads.trans (first : c.Leads d) (second : d.Leads e) : c.Leads e := by
  obtain ⟨_, first⟩ := first
  obtain ⟨_, second⟩ := second
  exact (first.trans second).leads

theorem in_start (text : List Char) : (start text).In text :=
  Leads.refl _

theorem In.leads (inside : c.In text) (on : c.Leads after) : after.In text :=
  Leads.trans inside on

theorem In.standsAt (inside : c.In text) (read : c.Reads found after) :
    StandsAt text c.index found := by
  obtain ⟨before, first⟩ := inside
  refine ⟨before, after.rest, ?_, by simpa [start] using first.index.symm⟩
  have whole : text = before ++ c.rest := first.rest
  rw [whole, read.rest, List.append_assoc]

theorem reads_next? {x : Char} (next : c.next? = some (x, after)) : c.Reads [x] after := by
  unfold next? at next
  split at next
  · cases next
  · next y rest chars =>
    cases next
    exact ⟨chars, by simp [byteLength]⟩

theorem reads_advance (c : Cursor) (n : Nat) : c.Reads (c.rest.take n) (c.advance n) :=
  ⟨(List.take_append_drop n c.rest).symm, rfl⟩

theorem reads_advance_one {x : Char} {rest : List Char} (head : c.rest = x :: rest) :
    c.Reads [x] (c.advance 1) := by
  have read := reads_advance c 1
  rwa [head] at read

theorem reads_span (c : Cursor) (kind : Char → Bool) : c.Reads (c.span kind).1 (c.span kind).2 :=
  ⟨List.takeWhile_append_dropWhile.symm, rfl⟩

theorem leads_advance (c : Cursor) (n : Nat) : c.Leads (c.advance n) :=
  (reads_advance c n).leads

theorem leads_skip (c : Cursor) (kind : Char → Bool) : c.Leads (c.skip kind) :=
  (reads_span c kind).leads

end RubyScaffold.Text.Cursor
