import RubyScaffold.Json.Reader
import RubyScaffold.Proofs.Fallible
import RubyScaffold.Proofs.Json.NumericText
import RubyScaffold.Proofs.Text.Literals

/-!
The reader of JSON only moves on: behind whatever it reads or passes over, its cursor has read the
characters in between.
-/

set_option autoImplicit false

namespace RubyScaffold.Json

open Text (Cursor)

variable {c after : Cursor} {fuel : Nat}

theorem word_leads {ws : List Char} (read : word ws c = .ok after) : c.Leads after := by
  induction ws generalizing c with
  | nil =>
    cases read
    exact .refl _
  | cons w ws ih =>
    rw [word] at read
    split at read
    · cases read
    · next x c' next =>
      split at read
      · exact (Cursor.reads_next? next).leads.trans (ih read)
      · cases read

private theorem fourHex_leads {n : Nat} (read : fourHex c = .ok (n, after)) : c.Leads after := by
  unfold fourHex at read
  split at read
  · cases read
  · split at read
    · cases read
      exact Cursor.leads_advance c 4
    · cases read

private theorem pairMark_leads {mark : Char} (read : pairMark mark c = .ok after) :
    c.Leads after := by
  unfold pairMark at read
  split at read
  · cases read
  · next x c' next =>
    split at read
    · cases read
      exact (Cursor.reads_next? next).leads
    · cases read

private theorem unicodeEscape_leads {x : Char} (read : unicodeEscape c = .ok (x, after)) :
    c.Leads after := by
  unfold unicodeEscape at read
  obtain ⟨⟨n, c₁⟩, first, read⟩ := bind_eq_ok.mp read
  have one := fourHex_leads first
  dsimp only at read
  split at read
  · cases read
  · split at read
    · cases read
      exact one
    · obtain ⟨c₂, slash, read⟩ := bind_eq_ok.mp read
      obtain ⟨c₃, letter, read⟩ := bind_eq_ok.mp read
      obtain ⟨⟨m, c₄⟩, second, read⟩ := bind_eq_ok.mp read
      have two := ((one.trans (pairMark_leads slash)).trans (pairMark_leads letter)).trans
        (fourHex_leads second)
      dsimp only at read
      split at read
      · cases read
      · obtain ⟨-, rfl⟩ := Prod.mk.inj (Except.ok.inj read)
        exact two

private theorem escape_leads {x : Char} (read : escape c = .ok (x, after)) : c.Leads after := by
  unfold escape at read
  split at read
  · cases read
  · next y c' next =>
    have first := (Cursor.reads_next? next).leads
    split at read
    · exact first.trans (unicodeEscape_leads read)
    · split at read
      · cases read
        exact first
      · cases read

private theorem quotedFrom_reads {found cs : List Char}
    (read : quotedFrom fuel found c = .ok (cs, after)) :
    Text.ReadsBody ['"'] c found cs after := by
  induction fuel generalizing found c with
  | zero => cases read
  | succ fuel ih =>
    rw [quotedFrom] at read
    split at read
    · cases read
    · next x c' next =>
      have first := Cursor.reads_next? next
      split at read
      · next quote =>
        cases read
        exact Text.readsBody_close (quote ▸ first)
      · split at read
        · next slash =>
          obtain ⟨⟨y, c''⟩, escaped, read⟩ := bind_eq_ok.mp read
          exact (ih read).escaped (slash ▸ first) (escape_leads escaped)
        · split at read
          · cases read
          · exact (ih read).plain first

def quotes : List (List Char × List Char) :=
  [(['"'], ['"'])]

theorem quoted_reads {rest : List Char} {s : String} (head : c.rest = '"' :: rest)
    (read : quoted (c.advance 1) = .ok (s, after)) :
    ∃ literal, c.Reads literal after ∧ Text.Spells quotes literal s := by
  unfold quoted at read
  obtain ⟨⟨cs, c'⟩, found, read⟩ := bind_eq_ok.mp read
  cases read
  exact (quotedFrom_reads found).spells (Cursor.reads_advance_one head) List.mem_cons_self

private theorem skipEscape_leads (read : skipEscape c = .ok after) : c.Leads after := by
  unfold skipEscape at read
  split at read
  · cases read
  · next x c' next =>
    have first := (Cursor.reads_next? next).leads
    split at read
    · cases digits : fourHex c' with
      | error f =>
        rw [digits] at read
        cases read
      | ok r =>
        rw [digits] at read
        cases read
        exact first.trans (fourHex_leads digits)
    · split at read
      · cases read
        exact first
      · cases read

private theorem skipQuoted_leads (read : skipQuoted fuel c = .ok after) : c.Leads after := by
  induction fuel generalizing c with
  | zero => cases read
  | succ fuel ih =>
    rw [skipQuoted] at read
    split at read
    · cases read
    · next x c' next =>
      have first := (Cursor.reads_next? next).leads
      split at read
      · cases read
        exact first
      · split at read
        · obtain ⟨c'', escaped, read⟩ := bind_eq_ok.mp read
          exact (first.trans (skipEscape_leads escaped)).trans (ih read)
        · split at read
          · cases read
          · exact first.trans (ih read)

private theorem digitRun_leads {ds : List Char} (read : digitRun c = (ds, after)) :
    c.Leads after := by
  have run := (reads_digitRun c).leads
  rwa [read] at run

private theorem skipExponent_leads (read : skipExponent c = .ok after) : c.Leads after := by
  unfold skipExponent at read
  extract_lets d at read
  have signed : c.Leads d := by
    dsimp only [d]
    split
    · exact Cursor.leads_advance c 1
    · exact Cursor.leads_advance c 1
    · exact .refl c
  split at read
  · split at read <;> cases read
  · next ds behind _ digits =>
    cases read
    exact signed.trans (digitRun_leads digits)

private theorem skipFraction_leads (read : skipFraction c = .ok after) : c.Leads after := by
  unfold skipFraction at read
  split at read
  · cases read
  · next ds behind _ digits =>
    have first := digitRun_leads digits
    have past := first.trans (Cursor.leads_advance behind 1)
    split at read
    · exact past.trans (skipExponent_leads read)
    · exact past.trans (skipExponent_leads read)
    · cases read
      exact first

private theorem skipNumber_leads (read : skipNumber c = .ok after) : c.Leads after := by
  unfold skipNumber at read
  extract_lets d at read
  have signed : c.Leads d := by
    dsimp only [d]
    split
    · exact Cursor.leads_advance c 1
    · exact .refl c
  split at read
  · split at read <;> cases read
  · cases read
  · next ds behind _ _ digits =>
    have first := signed.trans (digitRun_leads digits)
    have past := first.trans (Cursor.leads_advance behind 1)
    split at read
    · exact past.trans (skipFraction_leads read)
    · exact past.trans (skipExponent_leads read)
    · exact past.trans (skipExponent_leads read)
    · cases read
      exact first

theorem skipSpace_leads (c : Cursor) : c.Leads (skipSpace c) :=
  Cursor.leads_skip c isSpace

theorem leads_of_map {α β : Type} {x : Except Fault α} {f : α → β} {b : β}
    (read : x.map f = .ok b) : ∃ a, x = .ok a ∧ f a = b := by
  cases x with
  | error e => cases read
  | ok a => exact ⟨a, rfl, Except.ok.inj read⟩

private theorem skipKey_leads (read : skipKey c = .ok after) : c.Leads after := by
  unfold skipKey at read
  extract_lets d at read
  have first : c.Leads d := skipSpace_leads c
  split at read
  · obtain ⟨e, key, read⟩ := bind_eq_ok.mp read
    have past := ((first.trans (Cursor.leads_advance d 1)).trans (skipQuoted_leads key)).trans
      (skipSpace_leads e)
    dsimp only at read
    split at read
    · cases read
      exact past.trans (Cursor.leads_advance _ 1)
    · cases read
    · cases read
  · cases read
  · cases read

private theorem skipScalar_leads {inside : Option Opened}
    (read : skipScalar c = .ok (inside, after)) : c.Leads after := by
  have first := Cursor.leads_advance c 1
  unfold skipScalar at read
  split at read
  · cases read
  · obtain ⟨d, own, same⟩ := leads_of_map read
    cases same
    exact first.trans (word_leads own)
  · obtain ⟨d, own, same⟩ := leads_of_map read
    cases same
    exact first.trans (word_leads own)
  · obtain ⟨d, own, same⟩ := leads_of_map read
    cases same
    exact first.trans (word_leads own)
  · obtain ⟨d, own, same⟩ := leads_of_map read
    cases same
    exact first.trans (skipQuoted_leads own)
  · cases read
    exact first
  · cases read
    exact first
  · split at read
    · obtain ⟨d, own, same⟩ := leads_of_map read
      cases same
      exact skipNumber_leads own
    · cases read

private theorem skipMarks_leads {opened left : List Opened} {afterValue : Bool}
    (read : skipMarks afterValue opened c = .ok (left, after)) : c.Leads after := by
  induction opened generalizing afterValue c with
  | nil =>
    cases read
    exact .refl _
  | cons frame outer ih =>
    rw [skipMarks.eq_def] at read
    dsimp -zeta only at read
    extract_lets s ended goOn at read
    have first : c.Leads s := skipSpace_leads c
    have past : c.Leads (s.advance 1) := first.trans (Cursor.leads_advance s 1)
    have goes : ∀ d, c.Leads d → goOn d = .ok (left, after) → c.Leads after := by
      intro d there read
      dsimp only [goOn] at read
      split at read
      · cases read
        exact there
      · obtain ⟨e, own, same⟩ := leads_of_map read
        cases same
        exact there.trans (skipKey_leads own)
    split at read
    · cases read
    · cases read
    · exact past.trans (ih read)
    · exact past.trans (ih read)
    · split at read
      · split at read
        · exact goes _ past read
        · cases read
      · exact goes _ first read

private theorem skipValues_leads {opened : List Opened}
    (read : skipValues fuel opened c = .ok after) : c.Leads after := by
  induction fuel generalizing opened c with
  | zero => cases read
  | succ fuel ih =>
    rw [skipValues] at read
    obtain ⟨⟨inside, d⟩, scalar, read⟩ := bind_eq_ok.mp read
    have first := (skipSpace_leads c).trans (skipScalar_leads scalar)
    have goes : ∀ {afterValue opened left e}, skipMarks afterValue opened d = .ok (left, e) →
        (if left.isEmpty = true then .ok e else skipValues fuel left e) = .ok after →
        c.Leads after := by
      intro afterValue opened left e marks read
      have past := first.trans (skipMarks_leads marks)
      split at read
      · cases read
        exact past
      · exact past.trans (ih read)
    dsimp only at read
    split at read
    · obtain ⟨⟨left, e⟩, marks, read⟩ := bind_eq_ok.mp read
      exact goes marks read
    · obtain ⟨⟨left, e⟩, marks, read⟩ := bind_eq_ok.mp read
      exact goes marks read

theorem skipValue_leads (read : skipValue c = .ok after) : c.Leads after :=
  skipValues_leads read

end RubyScaffold.Json
