import RubyScaffold.Manifest.Basic
import RubyScaffold.Manifest.Mismatch

/-!
A manifest out of a tree. The tree is walked in order and the first mismatch counts. A record is
a table whose keys are its fields, or a list of its fields in their order; a field with a default
may be absent.
-/

set_option autoImplicit false

namespace RubyScaffold

variable {π φ : Type}

abbrev Decoded (π φ α : Type) := Except (Mismatch π φ) α

namespace Decode

def mismatch {α : Type} (expected : Expected) (t : Tree π φ) : Decoded π φ α :=
  match t with
  | .unreadable _ f => .error (.unreadable f)
  | t => .error (.wrongKind t.found expected t.place)

def ended : Option φ → Decoded π φ Unit
  | none => .ok ()
  | some f => .error (.unreadable f)

def text : Tree π φ → Decoded π φ String
  | .text _ s => .ok s
  | t => mismatch .text t

def bool : Tree π φ → Decoded π φ Bool
  | .bool _ b => .ok b
  | t => mismatch .bool t

def nullable {α : Type} (decode : Tree π φ → Decoded π φ α) : Tree π φ → Decoded π φ (Option α)
  | .null _ => .ok none
  | t => (decode t).map some

def texts : Tree π φ → Decoded π φ (List String)
  | .list _ items ending => do
    let found ← items.mapM text
    ended ending
    .ok found
  | t => mismatch .list t

def writings {α : Type} (decode : Tree π φ → Decoded π φ α) :
    OrderedMap α → List (String × π × Tree π φ) → Decoded π φ (OrderedMap α)
  | m, [] => .ok m
  | m, (key, _, t) :: rest => do
    let a ← decode t
    writings decode (m.insert key a) rest

/-- A map from text; a key that comes again replaces its value. -/
def map {α : Type} (decode : Tree π φ → Decoded π φ α) : Tree π φ → Decoded π φ (OrderedMap α)
  | .table _ members ending => do
    let m ← writings decode .empty members
    ended ending
    .ok m
  | t => mismatch .table t

def fitsWord (i : Int) : Bool :=
  decide (-0x8000000000000000 ≤ i) && decide (i < 0x10000000000000000)

mutual

/-- The first thing in a tree that cannot be read, or that is a whole number too wide. -/
def unreadable? (fits : Int → Bool) : Tree π φ → Option (Mismatch π φ)
  | .unreadable _ f => some (.unreadable f)
  | .integer p i => if fits i then none else some (.wrongKind (.integer i) .anything p)
  | .list _ items ending => (unreadableItem? fits items).or (ending.map .unreadable)
  | .table _ members ending => (unreadableMember? fits members).or (ending.map .unreadable)
  | .null _ | .bool _ _ | .float _ _ | .text _ _ | .skipped _ => none

def unreadableItem? (fits : Int → Bool) : List (Tree π φ) → Option (Mismatch π φ)
  | [] => none
  | t :: rest => (unreadable? fits t).or (unreadableItem? fits rest)

def unreadableMember? (fits : Int → Bool) : List (String × π × Tree π φ) → Option (Mismatch π φ)
  | [] => none
  | (_, _, t) :: rest => (unreadable? fits t).or (unreadableMember? fits rest)

end

/-- A value that is passed over. It is read to its end, whatever it is. -/
def ignored (t : Tree π φ) : Decoded π φ Unit :=
  match unreadable? (fun _ => true) t with
  | some m => .error m
  | none => .ok ()

/-- The integer that a directive may hold, or the nearest binary number to one out of range. -/
def directiveInteger (i : Int) : DirectiveValue :=
  if -0x8000000000000000 ≤ i ∧ i < 0x8000000000000000 then .integer (Int64.ofInt i)
  else .float (.ofRatio (decide (i < 0)) i.natAbs 1)

/-- The value of a directive. The tree is read to its end before its kind is looked at. -/
def directiveValue (t : Tree π φ) : Decoded π φ DirectiveValue :=
  match unreadable? fitsWord t with
  | some m => .error m
  | none => match t with
    | .bool _ b => .ok (.bool b)
    | .integer _ i => .ok (directiveInteger i)
    | .float _ x => .ok (.float x)
    | .text _ s => .ok (.text s)
    | t => .error (.noDirectiveValue t.place)

/-- How a record is made of its fields: its name, its fields in order, which of them has no
default, and what a field does to a record in the making. Fields that are not known are passed
over, or refused. -/
structure Record (π φ α : Type) where
  name : String
  fields : List String
  required : Option String
  lenient : Bool
  put : α → String → Tree π φ → Decoded π φ α

namespace Record

variable {α : Type}

def members (r : Record π φ α) :
    List String → α → List (String × π × Tree π φ) → Decoded π φ (α × List String)
  | seen, a, [] => .ok (a, seen)
  | seen, a, (key, place, t) :: rest =>
    if !r.fields.contains key then
      if r.lenient then do
        ignored t
        r.members seen a rest
      else .error (.unknownField key r.fields place)
    else if seen.contains key then .error (.repeatedField key place)
    else do
      let a ← r.put a key t
      r.members (key :: seen) a rest

def items (r : Record π φ α) :
    α → List String → List (Tree π φ) → Decoded π φ (α × List String × List (Tree π φ))
  | a, [], rest => .ok (a, [], rest)
  | a, fields, [] => .ok (a, fields, [])
  | a, key :: fields, t :: rest => do
    let a ← r.put a key t
    r.items a fields rest

/-- The record that a tree gives. What stands behind the last field of a list is for the format
to judge. -/
def decode (r : Record π φ α) (surplus : List (Tree π φ) → Option φ → Option φ) (start : α) :
    Tree π φ → Decoded π φ α
  | .table place found ending => do
    let (a, seen) ← r.members [] start found
    ended ending
    match r.required with
    | some key => if seen.contains key then .ok a else .error (.missingField key place)
    | none => .ok a
  | .list place found ending => do
    let (a, left, rest) ← r.items start r.fields found
    if left.isEmpty then
      ended (surplus rest ending)
      .ok a
    else
      ended ending
      match r.required with
      | some key =>
        if left.contains key then
          .error (.tooShort (r.fields.idxOf key) r.name r.fields.length place)
        else .ok a
      | none => .ok a
  | t => mismatch (.record r.name) t

end Record

/-- The settings of a manifest; fields of other names are none of its business. -/
def settingsRecord : Record π φ Settings where
  name := "Settings"
  fields := ["frozen_string_literal"]
  required := none
  lenient := true
  put := fun s _ t => do .ok (s.withFrozenStringLiteral (← bool t))

def classRecord : Record π φ ManifestClass where
  name := "ClassManifest"
  fields := ["name", "parent", "modules", "includes", "requires", "relative_requires", "fields",
    "methods", "top_contents", "directives"]
  required := some "name"
  lenient := false
  put := fun c key t => match key with
    | "name" => do .ok { c with name := ← text t }
    | "parent" => do .ok { c with parent := ← nullable text t }
    | "modules" => do .ok { c with scopes := ← texts t }
    | "includes" => do .ok { c with includes := ← texts t }
    | "requires" => do .ok { c with requires := ← texts t }
    | "relative_requires" => do .ok { c with relativeRequires := ← texts t }
    | "fields" => do .ok { c with fields := ← texts t }
    | "methods" => do .ok { c with methods := ← map (nullable texts) t }
    | "top_contents" => do .ok { c with topContents := ← texts t }
    | "directives" => do .ok { c with directives := ← map directiveValue t }
    | _ => .ok c

def manifestRecord (surplus : List (Tree π φ) → Option φ → Option φ) : Record π φ Manifest where
  name := "Manifest"
  fields := ["settings", "class"]
  required := some "class"
  lenient := false
  put := fun m key t => match key with
    | "settings" => do .ok { m with settings := ← settingsRecord.decode surplus {} t }
    | "class" => do .ok { m with cls := ← classRecord.decode surplus { name := "" } t }
    | _ => .ok m

def manifest (surplus : List (Tree π φ) → Option φ → Option φ) (t : Tree π φ) :
    Decoded π φ Manifest :=
  (manifestRecord surplus).decode surplus { cls := { name := "" } } t

/-- What of a manifest is looked at: everything but the settings with other names. -/
def asked : Interest :=
  let settings := Interest.parts
    (fun key => if key = "frozen_string_literal" then .everything else .nothing)
    (fun _ => .everything)
  .parts (fun key => if key = "settings" then settings else .everything)
    (fun i => if i = 0 then settings else .everything)

end Decode

end RubyScaffold
