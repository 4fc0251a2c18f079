import RubyScaffold.Manifest.Reading
import RubyScaffold.Proofs.Json.Breaks
import RubyScaffold.Proofs.Manifest.Decoding
import RubyScaffold.Proofs.Manifest.Legible

/-!
A binary number that is not finite is written as null, and no directive is null. However the
reader fares with the finite numbers around it, the manifest is refused.
-/

set_option autoImplicit false

namespace RubyScaffold

open Json (Value Ends chained write writeMembers value members maxDepth isNumeric)
open Text (Cursor)

private theorem jsonText?_of_nonFinite {x : Binary64} (infinite : x.isFinite = false) :
    Decimal.jsonText? x = none := by
  unfold Binary64.isFinite at infinite
  unfold Decimal.jsonText?
  split
  · next finite =>
    rw [finite] at infinite
    cases infinite
  · rfl

/-- What the reader makes of a directive value: it reads it and goes on behind it, or stops at it,
or goes on before its end. One that is not finite is read as something that is no directive. -/
private theorem value_directive (d : DirectiveValue) {rest : List Char} (ends : Ends rest)
    (depth : Nat) {fuel : Nat}
    (enough : 2 * ((write d.toJson).toList.length + rest.length) + 1 ≤ fuel) (i : Nat) :
    (∃ t after, value fuel depth .everything ⟨(write d.toJson).toList ++ rest, i⟩ =
      (t, some after) ∧ after.rest = rest ∧
      ∀ x, d = .float x → x.isFinite = false → ∃ m, Decode.directiveValue t = .error m) ∨
    (∃ p f, value fuel depth .everything ⟨(write d.toJson).toList ++ rest, i⟩ =
      (.unreadable p f, none)) ∨
    ∃ t after, value fuel depth .everything ⟨(write d.toJson).toList ++ rest, i⟩ =
      (t, some after) ∧ ∃ y more, after.rest = y :: more ∧ isNumeric y = true := by
  by_cases float : ∃ x, d = .float x
  · obtain ⟨x, rfl⟩ := float
    obtain ⟨fuel, rfl⟩ : ∃ n, fuel = n + 1 := ⟨fuel - 1, by omega⟩
    have wanted : Interest.everything ≠ .nothing := by simp
    rw [DirectiveValue.toJson, write]
    cases written : Decimal.jsonText? x with
    | none =>
      obtain ⟨p, k, read⟩ := Json.value_null wanted fuel depth rest i
      exact .inl ⟨.null p, ⟨rest, k⟩, read, rfl, fun _ _ _ => ⟨_, rfl⟩⟩
    | some s =>
      rcases Json.value_float written wanted ends fuel depth i with stops | ⟨t, after, read, behind⟩
      · exact .inr (.inl stops)
      · rcases behind with behind | early
        · refine .inl ⟨t, after, read, behind, ?_⟩
          intro y same infinite
          cases same
          rw [jsonText?_of_nonFinite infinite] at written
          cases written
        · exact .inr (.inr ⟨t, after, read, early⟩)
  · have exact : ∀ x, d ≠ .float x := fun x same => float ⟨x, same⟩
    obtain ⟨t, after, read, behind, -⟩ :=
      Json.value_write d.toJson (DirectiveValue.legible exact) ends enough i
    exact .inl ⟨t, after, read, behind, fun x same => absurd same (exact x)⟩

def directiveMembers (entries : List (String × DirectiveValue)) : List (String × Value) :=
  entries.map fun e => (e.1, e.2.toJson)

private theorem members_directives {entries : List (String × DirectiveValue)}
    (infinite : ∃ e ∈ entries, ∃ x, e.2 = .float x ∧ x.isFinite = false) (first : Bool)
    (rest : List Char) (depth : Nat) {fuel : Nat}
    (enough : 2 * ((chained first (writeMembers (directiveMembers entries))).length +
      ('}' :: rest).length) + 2 ≤ fuel) (i : Nat) :
    ∃ found r, members fuel depth .everything first
        ⟨chained first (writeMembers (directiveMembers entries)) ++ '}' :: rest, i⟩ = (found, r) ∧
      ((∀ m, ∃ e, Decode.writings Decode.directiveValue m found = .error e) ∨
        ∃ f, r = .error (some f)) := by
  induction entries generalizing first fuel i with
  | nil =>
    obtain ⟨e, mem, -⟩ := infinite
    cases mem
  | cons e entries ih =>
    obtain ⟨fuel, rfl⟩ : ∃ n, fuel = n + 1 := ⟨fuel - 1, by omega⟩
    obtain ⟨key, d⟩ := e
    obtain ⟨place, j, step⟩ := Json.members_step fuel depth .everything first key (write d.toJson)
      (writeMembers (directiveMembers entries)) ('}' :: rest) i
    have ends : Ends (chained false (writeMembers (directiveMembers entries)) ++ '}' :: rest) :=
      Json.ends_chained _ (.inr (.inr rfl))
    have text : writeMembers (directiveMembers ((key, d) :: entries)) =
        (Json.writeText key ++ ":" ++ write d.toJson) :: writeMembers (directiveMembers entries) :=
      rfl
    have asked : Interest.everything.member key = .everything := rfl
    rw [text] at enough
    obtain ⟨enoughOwn, enoughOthers⟩ := Json.enough_of_cons enough
    rw [text, step, asked]
    rcases value_directive d ends depth enoughOwn j with
      ⟨t, ⟨_, k⟩, read, rfl, refused⟩ | ⟨p, f, read⟩ | ⟨t, ⟨_, k⟩, read, y, more, rfl, numeric⟩
    · rw [read]
      by_cases own : ∃ x, d = .float x ∧ x.isFinite = false
      · obtain ⟨x, same, notFinite⟩ := own
        obtain ⟨m, bad⟩ := refused x same notFinite
        refine ⟨_, _, rfl, .inl fun acc => ⟨m, ?_⟩⟩
        rw [Decode.writings, bad]
        rfl
      · have later : ∃ e ∈ entries, ∃ x, e.2 = .float x ∧ x.isFinite = false := by
          obtain ⟨e, mem, x, same, notFinite⟩ := infinite
          rcases List.mem_cons.mp mem with rfl | mem
          · exact absurd ⟨x, same, notFinite⟩ own
          · exact ⟨e, mem, x, same, notFinite⟩
        obtain ⟨found, r, readOthers, spoilt⟩ := ih later false enoughOthers k
        rw [Json.memberAnd, readOthers]
        refine ⟨_, r, rfl, spoilt.imp_left ?_⟩
        intro spoilt acc
        rw [Decode.writings]
        cases Decode.directiveValue t with
        | error m => exact ⟨m, rfl⟩
        | ok d => exact spoilt (acc.insert key d)
    · rw [read]
      exact ⟨_, _, rfl, .inl fun acc => ⟨_, rfl⟩⟩
    · obtain ⟨fuel, rfl⟩ : ∃ n, fuel = n + 1 := ⟨fuel - 1, by omega⟩
      obtain ⟨f, stuck⟩ := Json.members_stuck numeric fuel depth .everything more k
      rw [read, Json.memberAnd, stuck]
      exact ⟨_, _, rfl, .inr ⟨f, rfl⟩⟩

private theorem map_directives {directives : OrderedMap DirectiveValue}
    (infinite : ∃ e ∈ directives.entries, ∃ x, e.2 = .float x ∧ x.isFinite = false)
    (rest : List Char) {depth : Nat} (room : 0 < depth) {fuel : Nat}
    (enough : 2 * ((write (directives.toJson DirectiveValue.toJson)).toList.length +
      rest.length) + 1 ≤ fuel) (i : Nat) :
    ∃ m, Decode.map Decode.directiveValue (value fuel depth .everything
      ⟨(write (directives.toJson DirectiveValue.toJson)).toList ++ rest, i⟩).1 = .error m := by
  have wanted : Interest.everything ≠ .nothing := by simp
  have same : directives.toJson DirectiveValue.toJson =
      .table (directiveMembers directives.entries) := rfl
  rw [same] at enough ⊢
  obtain ⟨c, inside, k, enoughInside, table⟩ :=
    Json.value_writeTable (directiveMembers directives.entries) wanted room rest enough i
  obtain ⟨found, r, read, spoilt⟩ :=
    members_directives infinite true rest (depth - 1) enoughInside k
  rw [table, read]
  rcases spoilt with spoilt | ⟨f, rfl⟩
  · obtain ⟨m, bad⟩ := spoilt .empty
    cases r with
    | ok after => exact ⟨m, by rw [Json.tableFrom, Decode.map, bad]; rfl⟩
    | error f => exact ⟨m, by rw [Json.tableFrom, Decode.map, bad]; rfl⟩
  · rw [Json.tableFrom, Decode.map]
    cases Decode.writings Decode.directiveValue .empty found with
    | error m => exact ⟨m, rfl⟩
    | ok m => exact ⟨.unreadable f, rfl⟩

private theorem put_directives_error {t : Json.JsonTree} {m : Mismatch Json.Place Json.Fault}
    (bad : Decode.map Decode.directiveValue t = .error m) (c : ManifestClass) :
    Decode.classRecord.put c "directives" t = .error m := by
  change (Decode.map Decode.directiveValue t >>= fun directives =>
    .ok { c with directives := directives }) = .error m
  rw [bad]
  rfl

private theorem put_class_error
    {surplus : List Json.JsonTree → Option Json.Fault → Option Json.Fault}
    {t : Json.JsonTree} {e : Mismatch Json.Place Json.Fault}
    (bad : Decode.classRecord.decode surplus { name := "" } t = .error e) (m : Manifest) :
    (Decode.manifestRecord surplus).put m "class" t = .error e := by
  change (Decode.classRecord.decode surplus { name := "" } t >>= fun cls =>
    .ok { m with cls := cls }) = .error e
  rw [bad]
  rfl

private theorem class_nonFinite {c : ManifestClass}
    (infinite : ∃ e ∈ c.directives.entries, ∃ x, e.2 = .float x ∧ x.isFinite = false)
    (rest : List Char) {depth : Nat} (room : 3 ≤ depth) {fuel : Nat}
    (enough : 2 * ((write (Manifest.classJson c)).toList.length + rest.length) + 1 ≤ fuel) (i : Nat)
    (surplus : List Json.JsonTree → Option Json.Fault → Option Json.Fault) (start : ManifestClass) :
    ∃ m, Decode.classRecord.decode surplus start (value fuel depth .everything
      ⟨(write (Manifest.classJson c)).toList ++ rest, i⟩).1 = .error m := by
  obtain ⟨depth, rfl⟩ : ∃ n, depth = n + 3 := ⟨depth - 3, by omega⟩
  have wanted : Interest.everything ≠ .nothing := by simp
  have legible : Json.LegibleMembers (("name", .text c.name) :: Manifest.plainMembers c) (depth + 2)
      .everything := legibleMembers_everything (plainMembers_legible c)
  have room : 0 < depth + 3 := by omega
  have roomInside : 0 < depth + 2 := by omega
  have asked : Interest.everything.member "directives" = .everything := rfl
  rw [Manifest.classJson_eq] at enough ⊢
  obtain ⟨place, p, found, ending, left, j, tree, enoughLast, mem⟩ :=
    Json.value_table_last ("name", .text c.name) wanted room legible "directives"
      (c.directives.toJson DirectiveValue.toJson) rest enough i
  obtain ⟨m, bad⟩ := map_directives infinite ('}' :: rest) roomInside enoughLast j
  rw [asked] at mem
  rw [tree]
  exact Decode.Record.decode_error rfl (fun a => ⟨m, put_directives_error bad a⟩) mem surplus start
    ending

/-- A manifest with a binary number that is not finite is not read from its text. -/
theorem decodeJson_nonFinite {m : Manifest}
    (infinite : ∃ e ∈ m.cls.directives.entries, ∃ x, e.2 = .float x ∧ x.isFinite = false) :
    ∃ e, Manifest.decodeJson m.jsonText = .error e := by
  have legible : Json.LegibleMembers [("settings", Manifest.settingsJson m.settings)] (maxDepth - 1)
      Decode.asked := ⟨settingsJson_legible m.settings, trivial⟩
  have enough := Json.enough_of_read (write m.toJson)
  rw [Manifest.toJson_eq] at enough
  obtain ⟨place, p, found, ending, left, j, tree, enoughLast, mem⟩ :=
    Json.value_table_last ("settings", Manifest.settingsJson m.settings) asked_ne_nothing
      (by decide) legible "class" (Manifest.classJson m.cls) [] enough 0
  have room : 3 ≤ maxDepth - 1 := by decide
  obtain ⟨e, bad⟩ := class_nonFinite infinite ['}'] room enoughLast j Json.surplusFault
    { name := "" }
  rw [asked_class] at mem
  obtain ⟨e, refused⟩ := Decode.Record.decode_error rfl (fun a => ⟨e, put_class_error bad a⟩) mem
    Json.surplusFault { cls := { name := "" } } ending
  have root : (Json.read Decode.asked m.jsonText).root = .table place found ending := by
    rw [Json.read_root, ← tree, List.append_nil]
    rfl
  refine ⟨e, ?_⟩
  rw [Manifest.decodeJson, Decode.manifest, root, refused]
  rfl

end RubyScaffold
