import RubyScaffold.Proofs.Toml.Tables

/-!
The places that the reader of TOML gives: a text and a key stand in the TOML text, as a literal for
it, at the place that their tree gives for them.
-/

set_option autoImplicit false

namespace RubyScaffold.Toml

open Text (Cursor)

variable {text : List Char} {c after : Cursor} {fuel : Nat}

private theorem writtenAt_spanTo {literal : List Char} {s : String} (inside : c.In text)
    (read : c.Reads literal after) (spells : Text.Spells marks literal s) :
    WrittenAt text (spanTo c after) s := by
  have length : c.index + (after.index - c.index) = after.index := by
    have behind := read.index
    omega
  unfold WrittenAt
  rw [spanTo, length]
  exact inside.written read spells

private theorem simpleKey_sound {key : Key} (inside : c.In text)
    (read : simpleKey c = .ok (key, after)) : KeySourced text key ∧ after.In text := by
  have quoted : ∀ {quote rest cs d}, quote ∈ ['"', '\''] → c.rest = quote :: rest →
      oneLine quote (c.rest.length + 1) [] (c.advance 1) = .ok (cs, d) →
      WrittenAt text (spanTo c d) (String.ofList cs) ∧ d.In text := by
    intro quote rest cs d isQuote head own
    obtain ⟨inner, others, same⟩ := oneLine_reads own
    have whole : c.Reads ([quote] ++ inner ++ [quote]) d := by
      simpa using (Cursor.reads_advance_one head).trans others
    refine ⟨writtenAt_spanTo inside whole ⟨[quote], inner, [quote], ?_, rfl, fun plain => ?_⟩,
      inside.leads whole.leads⟩
    · exact List.mem_cons_of_mem _ (List.mem_flatMap.mpr ⟨quote, isQuote, List.mem_cons_self⟩)
    · simp [same plain]
  unfold simpleKey at read
  extract_lets named at read
  split at read
  · next rest head =>
    obtain ⟨⟨cs, d⟩, own, read⟩ := bind_eq_ok.mp read
    cases read
    exact quoted (by simp) head own
  · next rest head =>
    obtain ⟨⟨cs, d⟩, own, read⟩ := bind_eq_ok.mp read
    cases read
    exact quoted (by simp) head own
  · have whole := Cursor.reads_span c isBareKey
    dsimp only at read
    split at read
    · cases read
    · cases read
      have spells : Text.Spells marks (c.span isBareKey).1
          (String.ofList (c.span isBareKey).1) :=
        ⟨[], (c.span isBareKey).1, [], List.mem_cons_self, by simp, fun _ => by simp⟩
      exact ⟨writtenAt_spanTo inside whole spells, inside.leads whole.leads⟩

private theorem dottedKeys_sound {keys : List Key} (inside : c.In text)
    (read : dottedKeys fuel c = .ok (keys, after)) :
    (∀ key ∈ keys, KeySourced text key) ∧ after.In text := by
  induction fuel generalizing c keys with
  | zero => cases read
  | succ fuel ih =>
    rw [dottedKeys] at read
    obtain ⟨⟨key, d⟩, own, read⟩ := bind_eq_ok.mp read
    obtain ⟨written, behind⟩ := simpleKey_sound (inside.leads (Cursor.leads_skip c isGap)) own
    have gap := behind.leads (Cursor.leads_skip d isGap)
    dsimp only at read
    split at read
    · obtain ⟨⟨others, e⟩, later, read⟩ := bind_eq_ok.mp read
      cases read
      obtain ⟨rest, end_⟩ := ih (gap.leads (Cursor.leads_advance _ 1)) later
      exact ⟨List.forall_mem_cons.mpr ⟨written, rest⟩, end_⟩
    · cases read
      exact ⟨List.forall_mem_singleton.mpr written, gap⟩

structure DottedSourced (text : List Char) (dotted : List Key × Key) : Prop where
  path : ∀ key ∈ dotted.1, KeySourced text key
  key : KeySourced text dotted.2

private theorem dottedKey_sound {dotted : List Key × Key} (inside : c.In text)
    (read : dottedKey c = .ok (dotted, after)) : DottedSourced text dotted ∧ after.In text := by
  unfold dottedKey at read
  obtain ⟨⟨keys, d⟩, own, read⟩ := bind_eq_ok.mp read
  obtain ⟨last, isLast, read⟩ := bind_eq_ok.mp read
  obtain ⟨all, behind⟩ := dottedKeys_sound inside own
  split at read
  · cases read
  · cases read
    exact ⟨⟨fun key mem => all key ((List.dropLast_sublist keys).subset mem),
      all last (List.mem_of_getLast? (need_eq_ok_iff.mp isLast))⟩, behind⟩

private theorem sourced_scalarTree (span : Span) (s : Scalar) :
    Sourced text (scalarTree span s) := by
  cases s with
  | bool => exact .bool
  | integer => exact .integer
  | float => exact .float
  | moment t => exact .made ⟨span, t, rfl⟩
  | tooLarge => exact .unreadable

private theorem scalarValue_sound {t : TomlTree} (inside : c.In text)
    (read : scalarValue c = .ok (t, after)) : Sourced text t ∧ after.In text := by
  have word := inside.leads (Cursor.reads_span c isScalarChar).leads
  unfold scalarValue at read
  dsimp -zeta only at read
  extract_lets longer at read
  -- a date with a time behind a blank is tried first
  have dated : ∀ r, longer = some r → Sourced text r.1 ∧ r.2.In text := by
    intro r read
    dsimp only [longer] at read
    split at read
    · split at read
      · obtain ⟨s, -, read⟩ := Option.bind_eq_some_iff.mp read
        cases read
        exact ⟨sourced_scalarTree _ s, (word.leads (Cursor.leads_advance _ 1)).leads
          (Cursor.reads_span _ isScalarChar).leads⟩
      · cases read
    · cases read
  clear_value longer
  split at read
  · next r =>
    cases read
    exact dated _ rfl
  · obtain ⟨s, -, read⟩ := bind_eq_ok.mp read
    cases read
    exact ⟨sourced_scalarTree _ s, word⟩

/-- What the readers of values, of items and of members deliver with some fuel stands at its
places. -/
structure Sound (text : List Char) (fuel : Nat) : Prop where
  value : ∀ {depth c t after}, c.In text → value fuel depth c = .ok (t, after) →
    Sourced text t ∧ after.In text
  items : ∀ {depth c ts after}, c.In text → items fuel depth c = .ok (ts, after) →
    (∀ t ∈ ts, Sourced text t) ∧ after.In text
  members : ∀ {depth entries c out after}, EntriesSourced text entries → c.In text →
    members fuel depth entries c = .ok (out, after) → EntriesSourced text out ∧ after.In text

private theorem Sound.value_step (sound : Sound text fuel) {depth : Nat} {t : TomlTree}
    (inside : c.In text) (read : Toml.value (fuel + 1) depth c = .ok (t, after)) :
    Sourced text t ∧ after.In text := by
  have next := inside.leads (Cursor.leads_advance c 1)
  have quoted : ∀ {quote rest s d}, quote ∈ ['"', '\''] → c.rest = quote :: rest →
      quotedWith quote c = .ok (s, d) → Sourced text (.text (spanTo c d) s) ∧ d.In text := by
    intro quote rest s d isQuote head own
    obtain ⟨literal, reads, spells⟩ := quotedWith_reads isQuote head own
    exact ⟨.text (writtenAt_spanTo inside reads spells), inside.leads reads.leads⟩
  rw [Toml.value] at read
  split at read
  · next rest head =>
    obtain ⟨⟨s, d⟩, own, read⟩ := bind_eq_ok.mp read
    cases read
    exact quoted (by simp) head own
  · next rest head =>
    obtain ⟨⟨s, d⟩, own, read⟩ := bind_eq_ok.mp read
    cases read
    exact quoted (by simp) head own
  · split at read
    · cases read
    · obtain ⟨⟨ts, d⟩, own, read⟩ := bind_eq_ok.mp read
      cases read
      obtain ⟨all, behind⟩ := sound.items next own
      exact ⟨.list all, behind⟩
  · split at read
    · cases read
    · obtain ⟨⟨entries, d⟩, own, read⟩ := bind_eq_ok.mp read
      cases read
      obtain ⟨all, behind⟩ := sound.members .nil next own
      exact ⟨all.tree, behind⟩
  · exact scalarValue_sound inside read

private theorem Sound.items_step (sound : Sound text fuel) {depth : Nat} {ts : List TomlTree}
    (inside : c.In text) (read : Toml.items (fuel + 1) depth c = .ok (ts, after)) :
    (∀ t ∈ ts, Sourced text t) ∧ after.In text := by
  rw [Toml.items] at read
  obtain ⟨d, gaps, read⟩ := bind_eq_ok.mp read
  have start := inside.leads (skipGaps_leads gaps)
  split at read
  · cases read
    exact ⟨by simp, start.leads (Cursor.leads_advance d 1)⟩
  · obtain ⟨⟨item, e⟩, own, read⟩ := bind_eq_ok.mp read
    obtain ⟨first, behind⟩ := sound.value start own
    obtain ⟨f, gaps, read⟩ := bind_eq_ok.mp read
    have past := (behind.leads (skipGaps_leads gaps)).leads (Cursor.leads_advance f 1)
    split at read
    · obtain ⟨⟨rest, g⟩, later, read⟩ := bind_eq_ok.mp read
      cases read
      obtain ⟨others, end_⟩ := sound.items past later
      exact ⟨List.forall_mem_cons.mpr ⟨first, others⟩, end_⟩
    · cases read
      exact ⟨List.forall_mem_singleton.mpr first, past⟩
    · cases read

private theorem Sound.members_step (sound : Sound text fuel) {depth : Nat} {entries out : Entries}
    (sourced : EntriesSourced text entries) (inside : c.In text)
    (read : Toml.members (fuel + 1) depth entries c = .ok (out, after)) :
    EntriesSourced text out ∧ after.In text := by
  rw [Toml.members] at read
  obtain ⟨d, gaps, read⟩ := bind_eq_ok.mp read
  have start := inside.leads (skipGaps_leads gaps)
  split at read
  · cases read
    exact ⟨sourced, start.leads (Cursor.leads_advance d 1)⟩
  · obtain ⟨⟨⟨path, key⟩, e⟩, dotted, read⟩ := bind_eq_ok.mp read
    obtain ⟨⟨pathWritten, written⟩, behind⟩ := dottedKey_sound start dotted
    dsimp only at read
    split at read
    · obtain ⟨⟨item, f⟩, own, read⟩ := bind_eq_ok.mp read
      obtain ⟨value, past⟩ := sound.value
        ((behind.leads (Cursor.leads_advance e 1)).leads (Cursor.leads_skip _ isGap)) own
      obtain ⟨more, added, read⟩ := bind_eq_ok.mp read
      have all := addValue_sourced sourced pathWritten written (.value value) added
      obtain ⟨g, gaps, read⟩ := bind_eq_ok.mp read
      have next := (past.leads (skipGaps_leads gaps)).leads (Cursor.leads_advance g 1)
      split at read
      · exact sound.members all next read
      · cases read
        exact ⟨all, next⟩
      · cases read
    · cases read

private theorem sound (text : List Char) (fuel : Nat) : Sound text fuel := by
  -- the three readers call each other with less fuel, so the induction carries all of them
  induction fuel with
  | zero =>
    refine ⟨fun _ read => ?_, fun _ read => ?_, fun _ _ read => ?_⟩
    · cases read
    · cases read
    · cases read
  | succ fuel ih => exact ⟨ih.value_step, ih.items_step, ih.members_step⟩

private theorem header_sound {h : Header} (inside : c.In text) (read : header c = .ok (h, after)) :
    HeaderSourced text h ∧ after.In text := by
  unfold header at read
  extract_lets repeated brackets at read
  obtain ⟨⟨⟨path, key⟩, d⟩, dotted, read⟩ := bind_eq_ok.mp read
  obtain ⟨⟨pathWritten, written⟩, behind⟩ :=
    dottedKey_sound (inside.leads (Cursor.leads_advance c brackets)) dotted
  dsimp only at read
  split at read
  · cases read
    exact ⟨⟨pathWritten, written⟩, behind.leads (Cursor.leads_advance d brackets)⟩
  · cases read

private theorem lines_sourced {a b : Assembly} (sourced : AssemblySourced text a)
    (inside : c.In text) (read : lines fuel a c = .ok b) : AssemblySourced text b := by
  induction fuel generalizing a c with
  | zero => cases read
  | succ fuel ih =>
    rw [lines] at read
    obtain ⟨d, gaps, read⟩ := bind_eq_ok.mp read
    have start := inside.leads (skipGaps_leads gaps)
    split at read
    · cases read
      exact sourced
    · obtain ⟨⟨h, e⟩, own, read⟩ := bind_eq_ok.mp read
      obtain ⟨keys, behind⟩ := header_sound start own
      obtain ⟨f, end_, read⟩ := bind_eq_ok.mp read
      obtain ⟨opened, made, read⟩ := bind_eq_ok.mp read
      exact ih (Assembly.openHeader_sourced sourced keys made) (behind.leads (lineEnd_leads end_))
        read
    · obtain ⟨⟨⟨path, key⟩, e⟩, dotted, read⟩ := bind_eq_ok.mp read
      obtain ⟨⟨pathWritten, written⟩, behind⟩ := dottedKey_sound start dotted
      dsimp only at read
      split at read
      · obtain ⟨⟨item, f⟩, own, read⟩ := bind_eq_ok.mp read
        obtain ⟨value, past⟩ := (sound text _).value
          ((behind.leads (Cursor.leads_advance e 1)).leads (Cursor.leads_skip _ isGap)) own
        obtain ⟨g, end_, read⟩ := bind_eq_ok.mp read
        obtain ⟨added, made, read⟩ := bind_eq_ok.mp read
        exact ih (Assembly.addLine_sourced sourced pathWritten written (.value value) made)
          (past.leads (lineEnd_leads end_)) read
      · cases read

/-- The texts and keys that are read from a TOML text stand in it at their places. -/
theorem read_sourced {text : String} {t : TomlTree} (read : Toml.read text = .ok t) :
    Sourced text.toList t := by
  unfold Toml.read at read
  extract_lets cs c d at read
  have start : d.In text.toList := by
    dsimp only [d]
    split
    · exact (Cursor.in_start _).leads (Cursor.leads_advance c 1)
    · exact Cursor.in_start _
  obtain ⟨a, made, read⟩ := bind_eq_ok.mp read
  obtain ⟨entries, closed, read⟩ := bind_eq_ok.mp read
  cases read
  have empty : AssemblySourced text.toList {} := ⟨.nil, by simp, .nil⟩
  exact (Assembly.close_sourced (lines_sourced empty start made) closed).tree

end RubyScaffold.Toml
