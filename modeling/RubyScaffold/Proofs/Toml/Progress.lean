import RubyScaffold.Proofs.Fallible
import RubyScaffold.Proofs.Text.Literals
import RubyScaffold.Toml.Reader

/-!
The reader of TOML only moves on: behind whatever it reads, its cursor has read the characters in
between, and those of a quoted text or a key are a literal for it.
-/

set_option autoImplicit false

namespace RubyScaffold.Toml

open Text (Cursor)

variable {c after : Cursor} {fuel : Nat} {quote : Char}

/-- What may stand around a text in TOML: nothing, a quote, or three quotes with perhaps a line
break behind the first three. -/
def marks : List (List Char × List Char) :=
  ([], []) :: ['"', '\''].flatMap fun q =>
    ([q], [q]) :: [[], ['\n'], ['\r', '\n']].map fun lineBreak =>
      ([q, q, q] ++ lineBreak, [q, q, q])

@[simp] theorem need_eq_ok_iff {α : Type} {flaw : Flaw} {x : Option α} {a : α} :
    need c flaw x = .ok a ↔ x = some a := by
  cases x <;> simp [need, refuse]

private theorem lineBreak?_reads (read : lineBreak? c = some after) :
    ∃ lineBreak ∈ [['\n'], ['\r', '\n']], c.Reads lineBreak after := by
  unfold lineBreak? at read
  split at read
  · next rest head =>
    cases read
    exact ⟨_, by simp, Cursor.reads_advance_one head⟩
  · next rest head =>
    cases read
    have both := Cursor.reads_advance c 2
    rw [head] at both
    exact ⟨_, by simp, both⟩
  · cases read

private theorem lineBreak?_leads (read : lineBreak? c = some after) : c.Leads after := by
  obtain ⟨_, _, reads⟩ := lineBreak?_reads read
  exact reads.leads

private theorem numberedChar_leads {digits : Nat} {x : Char}
    (read : numberedChar digits c = .ok (x, after)) : c.Leads after := by
  unfold numberedChar at read
  extract_lets found at read
  split at read
  · cases read
  · obtain ⟨values, -, read⟩ := bind_eq_ok.mp read
    dsimp only at read
    split at read
    · cases read
      exact Cursor.leads_advance c digits
    · cases read

private theorem escape_leads {x : Char} (read : escape c = .ok (x, after)) : c.Leads after := by
  unfold escape at read
  obtain ⟨⟨y, c'⟩, next, read⟩ := bind_eq_ok.mp read
  have first := (Cursor.reads_next? (need_eq_ok_iff.mp next)).leads
  dsimp only at read
  split at read
  case h_9 => exact first.trans (numberedChar_leads read)
  case h_10 => exact first.trans (numberedChar_leads read)
  case h_11 => exact first.trans (numberedChar_leads read)
  case h_12 => cases read
  all_goals
    cases read
    exact first

private theorem joinedLine?_leads (read : joinedLine? c = some after) : c.Leads after := by
  unfold joinedLine? at read
  obtain ⟨d, line, read⟩ := Option.bind_eq_some_iff.mp read
  cases read
  exact ((Cursor.leads_skip c isGap).trans (lineBreak?_leads line)).trans (Cursor.leads_advance d _)

theorem oneLine_reads {found cs : List Char}
    (read : oneLine quote fuel found c = .ok (cs, after)) :
    Text.ReadsBody [quote] c found cs after := by
  induction fuel generalizing found c with
  | zero => cases read
  | succ fuel ih =>
    rw [oneLine] at read
    obtain ⟨⟨x, c'⟩, next, read⟩ := bind_eq_ok.mp read
    have first := Cursor.reads_next? (need_eq_ok_iff.mp next)
    dsimp only at read
    split at read
    · next same =>
      cases read
      exact Text.readsBody_close (same ▸ first)
    · split at read
      · next slash =>
        obtain ⟨⟨y, c''⟩, escaped, read⟩ := bind_eq_ok.mp read
        exact (ih read).escaped (slash.1 ▸ first) (escape_leads escaped)
      · split at read
        · cases read
        · exact (ih read).plain first

private theorem take_quoteRun (quote : Char) (c : Cursor) :
    c.rest.take (quoteRun quote c) = List.replicate (quoteRun quote c) quote := by
  have front : (c.rest.take 5).takeWhile (· = quote) <+: c.rest :=
    (List.takeWhile_prefix _).trans (List.take_prefix 5 c.rest)
  have same : ∀ x ∈ (c.rest.take 5).takeWhile (· = quote), x = quote := fun x mem =>
    of_decide_eq_true (List.all_eq_true.mp List.all_takeWhile x mem)
  rw [quoteRun, ← List.prefix_iff_eq_take.mp front]
  exact List.eq_replicate_iff.mpr ⟨rfl, same⟩

private theorem manyLines_reads {found cs : List Char}
    (read : manyLines quote fuel found c = .ok (cs, after)) :
    Text.ReadsBody [quote, quote, quote] c found cs after := by
  induction fuel generalizing found c with
  | zero => cases read
  | succ fuel ih =>
    rw [manyLines] at read
    obtain ⟨⟨x, c'⟩, next, read⟩ := bind_eq_ok.mp read
    have first := Cursor.reads_next? (need_eq_ok_iff.mp next)
    dsimp only at read
    split at read
    · split at read
      · -- quotes of the text may stand before the three that close it
        next closes =>
        cases read
        refine ⟨List.replicate (quoteRun quote c - 3) quote, ?_, fun _ => rfl⟩
        have run := Cursor.reads_advance c (quoteRun quote c)
        have three : List.replicate (quoteRun quote c) quote =
            List.replicate (quoteRun quote c - 3) quote ++ [quote, quote, quote] := by
          have sum : quoteRun quote c = quoteRun quote c - 3 + 3 := by omega
          rw [sum, ← List.replicate_append_replicate]
          rfl
        rwa [take_quoteRun, three] at run
      · exact (ih read).plain first
    · split at read
      · next slash =>
        have backslash := slash.1 ▸ first
        split at read
        · next d joined => exact (ih read).escaped backslash (joinedLine?_leads joined)
        · obtain ⟨⟨y, d⟩, own, read⟩ := bind_eq_ok.mp read
          exact (ih read).escaped backslash (escape_leads own)
      · split at read
        · exact (ih read).plain first
        · split at read
          · split at read
            · next rest head =>
              exact (ih read).plain (first.trans (Cursor.reads_advance_one head))
            · cases read
          · split at read
            · cases read
            · exact (ih read).plain first

private theorem openedLine_reads (c : Cursor) :
    ∃ lineBreak ∈ [[], ['\n'], ['\r', '\n']], c.Reads lineBreak (openedLine c) := by
  unfold openedLine
  cases broken : lineBreak? c with
  | none => exact ⟨[], by simp, .refl c⟩
  | some after =>
    obtain ⟨lineBreak, mem, reads⟩ := lineBreak?_reads broken
    exact ⟨lineBreak, List.mem_cons_of_mem _ mem, reads⟩

theorem quotedWith_reads {rest : List Char} {s : String} (isQuote : quote ∈ ['"', '\''])
    (head : c.rest = quote :: rest) (read : quotedWith quote c = .ok (s, after)) :
    ∃ literal, c.Reads literal after ∧ Text.Spells marks literal s := by
  unfold quotedWith at read
  dsimp only at read
  split at read
  · next three =>
    obtain ⟨⟨cs, d⟩, own, read⟩ := bind_eq_ok.mp read
    cases read
    obtain ⟨lineBreak, break_mem, opened⟩ := openedLine_reads (c.advance 3)
    have start : c.rest.take 3 = [quote, quote, quote] :=
      (List.prefix_iff_eq_take.mp (List.isPrefixOf_iff_prefix.mp three)).symm
    have first := Cursor.reads_advance c 3
    rw [start] at first
    refine (manyLines_reads own).spells (first.trans opened) ?_
    refine List.mem_cons_of_mem _ (List.mem_flatMap.mpr ⟨quote, isQuote, ?_⟩)
    exact List.mem_cons_of_mem _ (List.mem_map.mpr ⟨lineBreak, break_mem, rfl⟩)
  · obtain ⟨⟨cs, d⟩, own, read⟩ := bind_eq_ok.mp read
    cases read
    refine (oneLine_reads own).spells (Cursor.reads_advance_one head) ?_
    exact List.mem_cons_of_mem _ (List.mem_flatMap.mpr ⟨quote, isQuote, List.mem_cons_self⟩)

private theorem skipComment_leads (read : skipComment c = .ok after) : c.Leads after := by
  unfold skipComment at read
  split at read
  · extract_lets body at read
    have past := (Cursor.reads_span c body).leads
    dsimp only at read
    split at read
    · cases read
    · split at read
      · cases read
        exact past
      · cases read
      · cases read
        exact past
  · cases read
    exact .refl _

private theorem skipLines_leads (read : skipLines fuel c = .ok after) : c.Leads after := by
  induction fuel generalizing c with
  | zero =>
    cases read
    exact .refl _
  | succ fuel ih =>
    rw [skipLines] at read
    obtain ⟨d, comment, read⟩ := bind_eq_ok.mp read
    have past := (Cursor.leads_skip c isGap).trans (skipComment_leads comment)
    split at read
    · next e line => exact (past.trans (lineBreak?_leads line)).trans (ih read)
    · cases read
      exact past

theorem skipGaps_leads (read : skipGaps c = .ok after) : c.Leads after :=
  skipLines_leads read

theorem lineEnd_leads (read : lineEnd c = .ok after) : c.Leads after := by
  unfold lineEnd at read
  obtain ⟨d, comment, read⟩ := bind_eq_ok.mp read
  have past := (Cursor.leads_skip c isGap).trans (skipComment_leads comment)
  split at read
  · cases read
    exact past
  · exact past.trans (lineBreak?_leads (need_eq_ok_iff.mp read))

end RubyScaffold.Toml
