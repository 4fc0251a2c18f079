import RubyScaffold.Files.Tree

/-!
What stands where in a tree after something was put into it, and where paths lead: to a place that
their steps alone decide, and only through directories that are there.
-/

set_option autoImplicit false

namespace RubyScaffold.Files

theorem endsInDirectory_of_pathSteps {path : String} (none : pathSteps path = []) :
    endsInDirectory path = true := by
  unfold endsInDirectory
  split
  · next part last =>
    have stays : step? part = .none :=
      List.filterMap_eq_nil_iff.mp none part (List.mem_of_getLast? last)
    unfold step? at stays
    split at stays
    · next here => rcases here with rfl | rfl <;> rfl
    · split at stays <;> cases stays
  · rfl

private theorem find_map_put (p q : Place) (e : Entry) (entries : List (Place × Entry)) :
    ((entries.map fun x => if x.1 = p then (p, e) else x).find? fun x => x.1 = q).map Prod.snd =
      if q = p ∧ (entries.find? fun x => x.1 = p).isSome then some e
      else (entries.find? fun x => x.1 = q).map Prod.snd := by
  induction entries with
  | nil => simp
  | cons x rest ih =>
    rw [List.map_cons, List.find?_cons, List.find?_cons, List.find?_cons]
    by_cases here : x.1 = p
    · by_cases same : q = p
      · simp [here, same]
      · have other : p ≠ q := fun h => same h.symm
        simp only [same, false_and, if_false] at ih ⊢
        simp only [here, if_true, decide_eq_false other, ih]
    · by_cases found : x.1 = q
      · have other : q ≠ p := fun h => here (found.trans h)
        simp [found, other]
      · simp only [here, found, if_false, decide_false, ih]

namespace FileTree

variable {t t' : FileTree} {p q : Place} {e : Entry} {path : String}

@[simp] theorem get?_root (t : FileTree) : t.get? [] = some .directory := by
  simp [get?]

@[simp] theorem work_put (t : FileTree) (p : Place) (e : Entry) : (t.put p e).work = t.work := by
  unfold put
  split <;> rfl

@[simp] theorem start_put (t : FileTree) (p : Place) (e : Entry) (path : String) :
    (t.put p e).start path = t.start path := by
  simp [start]

theorem get?_put (t : FileTree) (below : p ≠ []) (e : Entry) (q : Place) :
    (t.put p e).get? q = if q = p then some e else t.get? q := by
  by_cases root : q = []
  · simp [root, below.symm]
  · unfold put
    by_cases present : (t.entries.find? fun x => x.1 = p).isSome
    · rw [if_pos present, get?, if_neg root, find_map_put, get?, if_neg root]
      simp [present]
    · rw [if_neg present, get?, if_neg root, List.find?_append, get?, if_neg root]
      by_cases same : q = p
      · have absent : (t.entries.find? fun x => x.1 = p) = none :=
          Option.not_isSome_iff_eq_none.mp present
        simp [same, absent]
      · have other : p ≠ q := fun h => same h.symm
        simp [same, other]

/-- The place that steps lead to, whatever stands on the way. -/
def goal? : Place → List Step → Option Place
  | p, [] => some p
  | p, s :: rest => (target? p s).bind fun q => goal? q rest

def goalOf? (t : FileTree) (path : String) : Option Place :=
  goal? (t.start path) (pathSteps path)

/-- Whether steps from a place pass through another, which may be where they end. -/
def Passes (p : Place) (steps : List Step) (q : Place) : Prop :=
  ∃ first, first ≠ [] ∧ first <+: steps ∧ goal? p first = some q

theorem Passes.first {s : Step} {rest : List Step} (next : target? p s = some q) :
    Passes p (s :: rest) q :=
  ⟨[s], by simp, ⟨rest, rfl⟩, by simp [goal?, next]⟩

theorem Passes.later {s : Step} {rest : List Step} {r : Place} (next : target? p s = some q)
    (passes : Passes q rest r) : Passes p (s :: rest) r := by
  obtain ⟨first, -, ⟨others, rfl⟩, leads⟩ := passes
  exact ⟨s :: first, by simp, ⟨others, rfl⟩, by simp [goal?, next, leads]⟩

/-- Whether everything in a tree stands in a directory. -/
def Rooted (t : FileTree) : Prop :=
  ∀ p name e, t.get? (p ++ [name]) = some e → t.isDirectory p = true

/-- Whether steps go up only out of directories that are there. -/
def ClimbsSeen (t : FileTree) (p : Place) (steps : List Step) : Prop :=
  ∀ first rest q, steps = first ++ .up :: rest → goal? p first = some q → t.isDirectory q = true

theorem climbsSeen_of_notMem {steps : List Step} (noUp : Step.up ∉ steps) (t : FileTree)
    (p : Place) : t.ClimbsSeen p steps := by
  rintro first rest q rfl -
  simp at noUp

private theorem Rooted.dropLast (rooted : t.Rooted) (here : t.get? p = some e) :
    t.isDirectory p.dropLast = true := by
  by_cases root : p = []
  · simp [root, isDirectory]
  · rw [← List.dropLast_concat_getLast root] at here
    exact rooted p.dropLast (p.getLast root) e here

theorem Rooted.target (rooted : t.Rooted) (here : t.isDirectory p = true) {s : Step}
    (next : target? p s = some q) : t.isDirectory q.dropLast = true := by
  cases s with
  | up =>
    obtain rfl : p.dropLast = q := Option.some.inj next
    have above := rooted.dropLast (of_decide_eq_true here)
    exact rooted.dropLast (of_decide_eq_true above)
  | down name =>
    have below : p ++ [name] = q := by
      simp only [target?] at next
      split at next
      · exact Option.some.inj next
      · cases next
    rw [← below, List.dropLast_concat]
    exact here

theorem Rooted.put (rooted : t.Rooted) (below : p ≠ []) (inside : t.isDirectory p.dropLast = true)
    (kept : t.get? p = some .directory → e = .directory) : (t.put p e).Rooted := by
  have directories : ∀ q, t.isDirectory q = true → (t.put p e).isDirectory q = true := by
    intro q there
    have stands : t.get? q = some .directory := of_decide_eq_true there
    refine decide_eq_true ?_
    rw [get?_put t below]
    split
    · next same => rw [kept (same ▸ stands)]
    · exact stands
  intro q name other here
  rw [get?_put t below] at here
  split at here
  · next same =>
    rw [← same, List.dropLast_concat] at inside
    exact directories q inside
  · exact directories q (rooted q name other here)

/-- Where something stands that steps lead to, they find it, unless they go up out of a directory
that is missing. -/
theorem Rooted.locate?_eq {steps : List Step} (rooted : t.Rooted) (seen : t.ClimbsSeen p steps)
    (leads : goal? p steps = some q) (stands : t.get? q ≠ none) :
    t.locate? p steps = some q ∧ t.get? p ≠ none := by
  induction steps generalizing p with
  | nil =>
    obtain rfl : p = q := Option.some.inj leads
    exact ⟨rfl, stands⟩
  | cons s rest ih =>
    obtain ⟨r, next, leads⟩ := Option.bind_eq_some_iff.mp leads
    -- what stands behind the step is known first: a step down starts from a directory only because
    -- something stands where it leads
    have seenLater : t.ClimbsSeen r rest := by
      intro first others u split there
      exact seen (s :: first) others u (by rw [split]; rfl) (by simp [goal?, next, there])
    obtain ⟨found, there⟩ := ih seenLater leads
    have directory : t.isDirectory p = true := by
      cases s with
      | up => exact seen [] rest p rfl rfl
      | down name =>
        obtain ⟨e, stood⟩ := Option.ne_none_iff_exists'.mp there
        simp only [target?] at next
        split at next
        · obtain rfl := Option.some.inj next
          exact rooted p name e stood
        · cases next
    refine ⟨?_, ?_⟩
    · rw [locate?, if_pos directory, next]
      exact found
    · rw [of_decide_eq_true directory]
      simp

private theorem goal?_of_locate? {steps : List Step} (found : t.locate? p steps = some q) :
    goal? p steps = some q := by
  induction steps generalizing p with
  | nil => exact found
  | cons s rest ih =>
    rw [locate?] at found
    split at found
    · cases next : target? p s with
      | none => simp [next] at found
      | some r =>
        simp only [next] at found
        simp [goal?, next, ih found]
    · cases found

theorem Rooted.of_locate? {steps : List Step} (rooted : t.Rooted) (some : steps ≠ [])
    (found : t.locate? p steps = .some q) : t.isDirectory q.dropLast = true := by
  induction steps generalizing p with
  | nil => exact absurd rfl some
  | cons s rest ih =>
    rw [locate?] at found
    split at found
    · next here =>
      cases next : target? p s with
      | none => simp [next] at found
      | some r =>
        simp only [next] at found
        cases rest with
        | nil =>
          obtain rfl : r = q := Option.some.inj found
          exact rooted.target here next
        | cons _ _ => exact ih (by simp) found
    · cases found

theorem goalOf?_of_place? (found : t.place? path = some p) : t.goalOf? path = some p := by
  unfold place? at found
  split at found
  · cases found
  · exact goal?_of_locate? found

theorem file_of_read? {content : List UInt8} (read : t.read? path = some content) :
    path ≠ "" ∧ endsInDirectory path = false := by
  have file : t.lookup? path = some (.file content) := by
    unfold read? at read
    split at read
    · next found => rw [found, Option.some.inj read]
    · cases read
  unfold lookup? place? at file
  by_cases empty : path = ""
  · simp [empty] at file
  · refine ⟨empty, ?_⟩
    rw [if_neg empty] at file
    cases isDirectory : endsInDirectory path with
    | false => rfl
    | true =>
      rw [isDirectory] at file
      split at file
      · cases file
      · split at file
        · cases file
        · next noFile => exact absurd file (noFile content)

private theorem locate?_congr (same : ∀ q, t'.isDirectory q = t.isDirectory q) (p : Place)
    (steps : List Step) : t'.locate? p steps = t.locate? p steps := by
  induction steps generalizing p with
  | nil => rfl
  | cons s rest ih =>
    rw [locate?, locate?, same]
    simp only [ih]

/-- A file put where no directory stands leaves all paths where they were. -/
theorem place?_put (below : p ≠ []) (noDirectory : t.get? p ≠ some .directory)
    (content : List UInt8) (path : String) :
    (t.put p (.file content)).place? path = t.place? path := by
  have same : ∀ q, (t.put p (.file content)).isDirectory q = t.isDirectory q := by
    intro q
    by_cases here : q = p
    · simp [isDirectory, get?_put t below, here, noDirectory]
    · simp [isDirectory, get?_put t below, here]
  simp only [place?, start_put, locate?_congr same]

end FileTree

end RubyScaffold.Files
