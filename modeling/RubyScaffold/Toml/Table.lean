import RubyScaffold.Toml.Fault
import RubyScaffold.Tree

/-!
Putting the lines of a TOML text together. A table is opened by a header, or comes into being as a
part of a longer header or of a dotted key; each may be added to only in the way it was made.
-/

set_option autoImplicit false

namespace RubyScaffold.Toml

abbrev TomlTree := Tree Span Fault

structure Key where
  name : String
  span : Span

inductive Origin where
  /-- It has a header of its own. -/
  | header
  /-- It is a part of longer headers. -/
  | path
  /-- It is a part of dotted keys. -/
  | dotted
  deriving DecidableEq, Repr

/-- What stands under a key while a text is put together: a value that is complete, a table, or
the tables that repeated headers opened. -/
inductive Slot where
  | value (tree : TomlTree)
  | table (origin : Origin) (span : Span) (entries : List (String × Span × Slot))
  | tables (span : Span) (each : List (Span × List (String × Span × Slot)))

abbrev Entries := List (String × Span × Slot)

def Entries.find? (entries : Entries) (name : String) : Option Slot :=
  (List.find? (fun e => e.1 == name) entries).map fun e => e.2.2

def Entries.replace (entries : Entries) (name : String) (slot : Slot) : Entries :=
  List.map (fun e => if e.1 == name then (e.1, e.2.1, slot) else e) entries

def Entries.add (entries : Entries) (key : Key) (slot : Slot) : Entries :=
  List.append entries [(key.name, key.span, slot)]

/-- Changes the table at the end of a path, making the tables on the way that are not there. The
change is told how the table came into being. -/
def descend (byDots : Bool) (change : Origin → Entries → Except Fault Entries) :
    List Key → Origin → Entries → Except Fault Entries
  | [], origin, entries => change origin entries
  | key :: path, _, entries =>
    match entries.find? key.name with
    | none => do
      let origin := if byDots then Origin.dotted else Origin.path
      let inner ← descend byDots change path origin []
      .ok (entries.add key (.table origin key.span inner))
    | some (.value _) => .error ⟨.notExtensible, key.span⟩
    | some (.table origin span inner) =>
      if byDots ∧ origin = .header then .error ⟨.duplicateKey, key.span⟩
      else do
        let inner ← descend byDots change path origin inner
        .ok (entries.replace key.name (.table origin span inner))
    | some (.tables span each) =>
      match each.reverse with
      | [] => .error ⟨.duplicateKey, key.span⟩
      | (last, inner) :: before => do
        let inner ← descend byDots change path .header inner
        .ok (entries.replace key.name (.tables span ((last, inner) :: before).reverse))

/-- The entries with a value under a dotted key. Dots may only add to tables that dots made, and a
key without dots only to the table at hand. -/
def addValue (entries : Entries) (path : List Key) (key : Key) (slot : Slot) :
    Except Fault Entries :=
  descend (!path.isEmpty)
    (fun origin found =>
      if (origin = .dotted) ≠ !path.isEmpty then .error ⟨.duplicateKey, key.span⟩
      else if (found.find? key.name).isSome then .error ⟨.duplicateKey, key.span⟩
      else .ok (found.add key slot))
    path .header entries

/-- A header: the keys before its last one, its last one, whether it opens one of several tables,
and where it stands. -/
structure Header where
  path : List Key
  key : Key
  repeated : Bool
  span : Span

/-- A text being put together: the tables that are complete, the header that is open, and the
entries under it. -/
structure Assembly where
  root : Entries := []
  header : Option Header := none
  current : Entries := []

namespace Assembly

def close (a : Assembly) : Except Fault Entries :=
  match a.header with
  | none => .ok a.current
  | some h => descend false (fun _ found =>
      if h.repeated then
        match found.find? h.key.name with
        | none => .ok (found.add h.key (.tables h.span [(h.span, a.current)]))
        | some (.tables span each) =>
          .ok (found.replace h.key.name (.tables span (each ++ [(h.span, a.current)])))
        | some _ => .error ⟨.duplicateKey, h.key.span⟩
      else if (found.find? h.key.name).isSome then .error ⟨.duplicateKey, h.key.span⟩
      else .ok (found.add h.key (.table .header h.span a.current)))
    h.path .header a.root

/-- Takes a table that longer headers made out of its place, so that its own header can go on
with it; gives its entries. -/
def reopen (h : Header) (root : Entries) : Except Fault (Entries × Entries) :=
  let takeOut (found : Entries) : Except Fault (Entries × Entries) :=
    match found.find? h.key.name with
    | none => .ok ([], found)
    | some (.table .path _ entries) =>
      .ok (entries, List.filter (fun e => e.1 != h.key.name) found)
    | some _ => .error ⟨.duplicateKey, h.key.span⟩
  do
    -- the same descent twice: once for what is found, once for what is left
    let rest ← descend false (fun _ found => (takeOut found).map Prod.snd) h.path .header root
    let inner ← descend false (fun _ found => (takeOut found).map Prod.fst) h.path .header root
    .ok (entriesAt h.path inner, rest)
where
  /-- The entries at the end of a path that is there. -/
  entriesAt : List Key → Entries → Entries
    | [], entries => entries
    | key :: path, entries => match entries.find? key.name with
      | some (.table _ _ inner) => entriesAt path inner
      | some (.tables _ each) => match each.getLast? with
        | some (_, inner) => entriesAt path inner
        | none => []
      | _ => []

def openHeader (a : Assembly) (h : Header) : Except Fault Assembly := do
  let root ← a.close
  if h.repeated then .ok { root := root, header := some h, current := [] }
  else
    let (entries, root) ← reopen h root
    .ok { root := root, header := some h, current := entries }

def addLine (a : Assembly) (path : List Key) (key : Key) (slot : Slot) :
    Except Fault Assembly := do
  .ok { a with current := ← addValue a.current path key slot }

end Assembly

mutual

def Slot.tree : Slot → TomlTree
  | .value t => t
  | .table _ span entries => .table span (entryTrees entries) none
  | .tables span each => .list span (tableTrees each) none

def entryTrees : List (String × Span × Slot) → List (String × Span × TomlTree)
  | [] => []
  | (name, span, slot) :: rest => (name, span, slot.tree) :: entryTrees rest

def tableTrees : List (Span × List (String × Span × Slot)) → List TomlTree
  | [] => []
  | (span, entries) :: rest => .table span (entryTrees entries) none :: tableTrees rest

end

end RubyScaffold.Toml
