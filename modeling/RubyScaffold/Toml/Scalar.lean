import RubyScaffold.Decimal.Binary64
import RubyScaffold.Text.Pieces

/-!
The unquoted values of TOML: truth values, integers to four bases, binary numbers, and dates and
times. Underscores may stand between two digits.
-/

set_option autoImplicit false

namespace RubyScaffold.Toml

inductive Scalar where
  | bool (b : Bool)
  | integer (i : Int)
  | float (x : Binary64)
  | moment (text : String)
  /-- A number that its kind cannot hold. -/
  | tooLarge

/-- The digits with the underscores between them left out, if each stands between two digits. -/
def plainDigits? (isDigit : Char → Bool) : List Char → Option (List Char)
  | [] => none
  | [d] => if isDigit d then some [d] else none
  | d :: '_' :: rest => if isDigit d then (plainDigits? isDigit rest).map (d :: ·) else none
  | d :: rest => if isDigit d then (plainDigits? isDigit rest).map (d :: ·) else none

def digitValue (c : Char) : Nat :=
  if c.isDigit then c.toNat - '0'.toNat
  else if c.toNat ≤ 'F'.toNat then c.toNat - 'A'.toNat + 10
  else c.toNat - 'a'.toNat + 10

def digitsValue (base : Nat) (ds : List Char) : Nat :=
  ds.foldl (fun n d => n * base + digitValue d) 0

def isHex (c : Char) : Bool :=
  c.isDigit || ('a' ≤ c && c ≤ 'f') || ('A' ≤ c && c ≤ 'F')

def decimalDigits? (cs : List Char) : Option (List Char) := do
  let ds ← plainDigits? Char.isDigit cs
  if ds.head? = some '0' ∧ 1 < ds.length then none else some ds

def signOf : List Char → Bool × List Char
  | '-' :: rest => (true, rest)
  | '+' :: rest => (false, rest)
  | cs => (false, cs)

/-- An integer as a value, as long as 128 bits hold it. -/
def integerScalar (i : Int) : Scalar :=
  if -0x80000000000000000000000000000000 ≤ i ∧ i < 0x100000000000000000000000000000000 then
    .integer i
  else .tooLarge

/-- An integer. Those to another base than ten have no sign. -/
def integer? (cs : List Char) : Option Scalar :=
  match cs with
  | '0' :: 'x' :: ds => (plainDigits? isHex ds).map fun ds => integerScalar (digitsValue 16 ds)
  | '0' :: 'o' :: ds =>
    (plainDigits? (fun c => '0' ≤ c && c ≤ '7') ds).map fun ds => integerScalar (digitsValue 8 ds)
  | '0' :: 'b' :: ds =>
    (plainDigits? (fun c => c = '0' || c = '1') ds).map fun ds =>
      integerScalar (digitsValue 2 ds)
  | cs =>
    let (negative, digits) := signOf cs
    (decimalDigits? digits).map fun ds =>
      let n : Int := digitsValue 10 ds
      integerScalar (if negative then -n else n)

def exponent? (cs : List Char) : Option Int :=
  let (negative, digits) := signOf cs
  (plainDigits? Char.isDigit digits).map fun ds =>
    let n : Int := digitsValue 10 ds
    if negative then -n else n

def floatScalar (negative : Bool) (whole fraction : List Char) (exponent : Int) : Scalar :=
  let x := Binary64.ofDecimal negative (digitsValue 10 (whole ++ fraction))
    (exponent - fraction.length)
  if x.isFinite then .float x else .tooLarge

def float? (cs : List Char) : Option Scalar := do
  let (negative, cs) := signOf cs
  let isMark (c : Char) : Bool := c ≠ '.' && c ≠ 'e' && c ≠ 'E'
  let whole ← decimalDigits? (cs.takeWhile isMark)
  match cs.dropWhile isMark with
  | '.' :: rest =>
    let inFraction (c : Char) : Bool := c ≠ 'e' && c ≠ 'E'
    let fraction ← plainDigits? Char.isDigit (rest.takeWhile inFraction)
    match rest.dropWhile inFraction with
    | [] => some (floatScalar negative whole fraction 0)
    | _ :: power => (exponent? power).map (floatScalar negative whole fraction)
  | _ :: power => (exponent? power).map (floatScalar negative whole [])
  | [] => none

def namedFloat? (cs : List Char) : Option Scalar :=
  match signOf cs with
  | (negative, ['i', 'n', 'f']) => some (.float (.infinity negative))
  | (negative, ['n', 'a', 'n']) =>
    some (.float (if negative then Binary64.nan.neg else Binary64.nan))
  | _ => none

def field? (digits low high : Nat) (cs : List Char) : Option Nat :=
  if cs.length = digits ∧ cs.all Char.isDigit then
    let n := digitsValue 10 cs
    if low ≤ n ∧ n ≤ high then some n else none
  else none

def daysIn (year month : Nat) : Nat :=
  if month = 2 then
    if year % 4 = 0 ∧ (year % 100 ≠ 0 ∨ year % 400 = 0) then 29 else 28
  else if month = 4 ∨ month = 6 ∨ month = 9 ∨ month = 11 then 30
  else 31

def date? (cs : List Char) : Option (List Char) :=
  match Text.pieces '-' cs with
  | [y, m, d] => do
    let year ← field? 4 0 9999 y
    let month ← field? 2 1 12 m
    let _ ← field? 2 1 (daysIn year month) d
    some cs
  | _ => none

/-- The fraction of a second with at most nine digits and no zeros at its end. -/
def secondFraction? (cs : List Char) : Option (List Char) :=
  if cs.isEmpty ∨ !cs.all Char.isDigit then none
  else
    let kept := ((cs.take 9).reverse.dropWhile (· = '0')).reverse
    some (if kept.isEmpty then [] else '.' :: kept)

/-- A time of day; its seconds may be absent. -/
def time? (cs : List Char) : Option (List Char) :=
  match Text.pieces ':' cs with
  | [h, m] => do
    let _ ← field? 2 0 23 h
    let _ ← field? 2 0 59 m
    some cs
  | [h, m, s] => do
    let _ ← field? 2 0 23 h
    let _ ← field? 2 0 59 m
    let _ ← field? 2 0 60 (s.take 2)
    let fraction ← match s.drop 2 with
      | [] => some []
      | '.' :: rest => secondFraction? rest
      | _ => none
    some (h ++ ':' :: m ++ ':' :: s.take 2 ++ fraction)
  | _ => none

def zonedTime? (cs : List Char) : Option (List Char) :=
  let isTime (c : Char) : Bool := c ≠ '+' && c ≠ '-' && c ≠ 'Z' && c ≠ 'z'
  match cs.dropWhile isTime with
  | [] => time? cs
  | mark :: zone => do
    let time ← time? (cs.takeWhile isTime)
    if mark = 'Z' ∨ mark = 'z' then if zone.isEmpty then some (time ++ ['Z']) else none
    else match Text.pieces ':' zone with
      | [h, m] => do
        let _ ← field? 2 0 23 h
        let _ ← field? 2 0 59 m
        some (time ++ mark :: zone)
      | _ => none

def moment? (cs : List Char) : Option Scalar :=
  match cs.drop 10 with
  | [] => ((date? cs).or (time? cs)).map fun t => .moment (String.ofList t)
  | mark :: rest =>
    if mark = 'T' ∨ mark = 't' ∨ mark = ' ' then do
      let date ← date? (cs.take 10)
      let time ← zonedTime? rest
      some (.moment (String.ofList (date ++ 'T' :: time)))
    else (time? cs).map fun t => .moment (String.ofList t)

def scalar? (cs : List Char) : Option Scalar :=
  match String.ofList cs with
  | "true" => some (.bool true)
  | "false" => some (.bool false)
  | _ => (integer? cs).or ((float? cs).or ((namedFloat? cs).or (moment? cs)))

end RubyScaffold.Toml
